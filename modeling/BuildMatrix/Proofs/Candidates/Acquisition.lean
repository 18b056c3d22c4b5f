import BuildMatrix.Candidates.Acquisition
import BuildMatrix.Proofs.Candidates.Collection
import BuildMatrix.Proofs.Registry.Exchange
import BuildMatrix.Proofs.Version.Collection

/-!
# Which candidates are acquired

A source offers a version when it delivers a cycle that is usable for it. Candidates are the
versions on offer as long as there are any. In every other case, whatever kept the source from
offering one, they are those of the built-in table, as they are offline.
-/

namespace BuildMatrix.Candidates

open Registry (RegistryError Source)

/-- There is a source, and it delivers a cycle that is usable for the version. -/
def Offers (floor : Version) (source : Option Source) (version : Version) : Prop :=
  ∃ asked cycles, source = some asked ∧ asked.Delivers cycles ∧
    ∃ cycle ∈ cycles, cycle.Usable floor version

/-- A version on offer is not below the floor. -/
theorem Offers.floor_le {floor version : Version} {source : Option Source}
    (offered : Offers floor source version) : floor ≤ version := by
  obtain ⟨asked, cycles, -, -, cycle, -, usable⟩ := offered
  exact usable.2

/-- Candidates without an entry are those without a version. -/
theorem entries_isEmpty_iff {candidates : Candidates} :
    candidates.entries.isEmpty = true ↔ ∀ version, version ∉ candidates.versions := by
  have same : candidates.entries.isEmpty = candidates.versions.isEmpty := by
    show _ = (candidates.entries.map Prod.fst).isEmpty
    rw [List.isEmpty_map]
  rw [same, VersionSet.isEmpty_iff]

/-- An answer gives candidates when one of its cycles is usable, and then those of its cycles. -/
theorem ofAnswer_eq_ok_iff {floor : Version} {answer : Except RegistryError (List ReleaseCycle)}
    {candidates : Candidates} :
    ofAnswer floor answer = .ok candidates ↔
      ∃ cycles, answer = .ok cycles ∧ candidates = ofCycles cycles floor ∧
        ∃ version, ∃ cycle ∈ cycles, cycle.Usable floor version := by
  have opened : ofAnswer floor answer = .ok candidates ↔
      ∃ cycles, answer = .ok cycles ∧
        (if (ofCycles cycles floor).entries.isEmpty then .error .emptyResponse
          else .ok (ofCycles cycles floor) : Except RegistryError Candidates) = .ok candidates :=
    Traversal.bind_eq_ok_iff
  rw [opened]
  refine exists_congr fun cycles => and_congr_right fun _ => ?_
  by_cases empty : (ofCycles cycles floor).entries.isEmpty = true
  · have none : ¬ ∃ version, ∃ cycle ∈ cycles, cycle.Usable floor version := by
      rintro ⟨version, usable⟩
      exact entries_isEmpty_iff.1 empty version (mem_versions_ofCycles.2 usable)
    simp [empty, none]
  · have some : ∃ version, ∃ cycle ∈ cycles, cycle.Usable floor version := by
      by_contra none
      refine empty (entries_isEmpty_iff.2 fun version member => ?_)
      exact none ⟨version, mem_versions_ofCycles.1 member⟩
    simp [empty, some, eq_comm]

/-- Offline, the built-in candidates are taken and nothing is asked. -/
@[simp]
theorem acquire_offline (floor : Version) (source : Option Source) :
    acquire true floor source = (builtIn, []) := rfl

/-- Without a version on offer, the built-in candidates are taken. -/
theorem acquire_of_no_offer {floor : Version} {source : Option Source}
    (none : ∀ version, ¬ Offers floor source version) (offline : Bool) :
    (acquire offline floor source).1 = builtIn := by
  cases offline with
  | true => rw [acquire_offline]
  | false =>
    cases source with
    | none => rfl
    | some asked =>
      show ofAnswerOrBuiltIn floor asked.consult.answer = builtIn
      unfold ofAnswerOrBuiltIn
      cases answered : ofAnswer floor asked.consult.answer with
      | error failure => rfl
      | ok candidates =>
        obtain ⟨cycles, delivered, -, version, usable⟩ := ofAnswer_eq_ok_iff.1 answered
        have offered : Offers floor (some asked) version :=
          ⟨asked, cycles, rfl, Source.consult_answer_eq_ok_iff.1 delivered, usable⟩
        exact absurd offered (none version)

/-- With a version on offer, the candidates are live, and they are the versions on offer. -/
theorem acquire_of_offer {floor offered : Version} {source : Option Source}
    (offer : Offers floor source offered) :
    (acquire false floor source).1.origin = .live ∧
      ∀ version, version ∈ (acquire false floor source).1.versions ↔
        Offers floor source version := by
  obtain ⟨asked, cycles, rfl, delivered, usable⟩ := offer
  have answered := Source.consult_answer_eq_ok_iff.2 delivered
  have acquired : (acquire false floor (some asked)).1 = ofCycles cycles floor := by
    show ofAnswerOrBuiltIn floor asked.consult.answer = ofCycles cycles floor
    rw [ofAnswerOrBuiltIn, ofAnswer_eq_ok_iff.2 ⟨cycles, answered, rfl, offered, usable⟩]
  rw [acquired]
  refine ⟨origin_ofCycles cycles floor, fun version => ?_⟩
  rw [mem_versions_ofCycles]
  constructor
  · intro found
    exact ⟨asked, cycles, rfl, delivered, found⟩
  · rintro ⟨other, others, same, otherDelivered, found⟩
    obtain rfl : asked = other := Option.some.inj same
    have alike := answered.symm.trans (Source.consult_answer_eq_ok_iff.2 otherDelivered)
    rwa [Except.ok.inj alike]

/-- There is always a candidate. -/
theorem exists_mem_acquire (offline : Bool) (floor : Version) (source : Option Source) :
    ∃ version, version ∈ (acquire offline floor source).1.versions := by
  have tabled : (⟨3, 9⟩ : Version) ∈ builtIn.versions := by decide
  cases offline with
  | true => exact ⟨_, tabled⟩
  | false =>
    by_cases some : ∃ version, Offers floor source version
    · obtain ⟨version, offer⟩ := some
      exact ⟨version, ((acquire_of_offer offer).2 version).2 offer⟩
    · rw [acquire_of_no_offer (not_exists.1 some)]
      exact ⟨_, tabled⟩

end BuildMatrix.Candidates
