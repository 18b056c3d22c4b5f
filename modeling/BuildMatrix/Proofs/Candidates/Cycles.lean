import Mathlib.Data.List.Sort
import BuildMatrix.Proofs.Candidates.Collection

/-!
# Candidates of release cycles

What the candidates of a list of release cycles say about a version depends on the cycles of that
version alone: it is what the last of them says, if the version is not below the floor. So the list
may be reordered as long as the cycles of each version keep their order, cycles that are not usable
come and go without a trace, and a higher floor only takes versions away.
-/

namespace BuildMatrix

/-- The cycles whose identifiers are read as the version, in their order. -/
def ReleaseCycle.naming (version : Version) (cycles : List ReleaseCycle) : List ReleaseCycle :=
  cycles.filter fun cycle => Version.parse cycle.cycle = .ok version

namespace Candidates

/-! ## Candidates as maps -/

/-- Candidates of one origin that say the same about every version are the same. -/
theorem eq_of_lifecycle? {left right : Candidates} (origins : left.origin = right.origin)
    (same : ∀ version, left.lifecycle? version = right.lifecycle? version) : left = right := by
  let before (entry other : Version × Lifecycle) : Prop := entry.1 < other.1
  have irreflexive : Std.Irrefl before := ⟨fun entry => Version.lt_irrefl entry.1⟩
  have antisymmetric : Std.Antisymm before :=
    ⟨fun entry other less more => absurd (Version.lt_trans less more) (Version.lt_irrefl entry.1)⟩
  have members : ∀ entry, entry ∈ left.entries ↔ entry ∈ right.entries := by
    intro entry
    rw [← lifecycle?_eq_some_iff, ← lifecycle?_eq_some_iff, same]
  have entries : left.entries = right.entries :=
    List.Pairwise.eq_of_mem_iff (r := before) left.ascending right.ascending members
  cases left
  cases right
  simp_all

/-- The candidates at or above a floor. -/
def restrict (candidates : Candidates) (floor : Version) : Candidates where
  entries := candidates.entries.filter fun entry => floor ≤ entry.1
  ascending := candidates.ascending.filter _
  origin := candidates.origin

/-- A restriction says the same about the versions that it keeps. -/
theorem lifecycle?_restrict (candidates : Candidates) (floor version : Version) :
    (candidates.restrict floor).lifecycle? version =
      if floor ≤ version then candidates.lifecycle? version else none := by
  have kept (lifecycle : Lifecycle) :
      (version, lifecycle) ∈ (candidates.restrict floor).entries ↔
        (version, lifecycle) ∈ candidates.entries ∧ floor ≤ version := by
    simp [restrict]
  apply Option.ext
  intro lifecycle
  rw [lifecycle?_eq_some_iff, kept, ← lifecycle?_eq_some_iff]
  by_cases above : floor ≤ version <;> simp [above]

/-! ## The last cycle of a version -/

/-- The first entry of a version is that of the first cycle that names it, above the floor. -/
theorem lookup_filterMap_candidate? (cycles : List ReleaseCycle) (floor version : Version) :
    (cycles.filterMap (candidate? floor)).lookup version =
      if floor ≤ version then
        (cycles.find? fun cycle => Version.parse cycle.cycle = .ok version).map
          ReleaseCycle.lifecycle
      else none := by
  induction cycles with
  | nil => simp
  | cons cycle rest ih =>
    rw [List.filterMap_cons, List.find?_cons, candidate?]
    cases read : Version.parse cycle.cycle with
    | error failure => simpa using ih
    | ok named =>
      by_cases same : named = version
      · rw [same]
        by_cases above : floor ≤ version
        · simp [above]
        · simpa [above] using ih
      · have behind : ¬ version = named := Ne.symm same
        by_cases usable : floor ≤ named
        · simpa [usable, same, behind, lookup_entries] using ih
        · simpa [usable, same] using ih

/-- The candidates of cycles say about a version what the last cycle that names it says, unless the
version is below the floor. -/
theorem lifecycle?_ofCycles_eq (cycles : List ReleaseCycle) (floor version : Version) :
    (ofCycles cycles floor).lifecycle? version =
      if floor ≤ version then
        (ReleaseCycle.naming version cycles).getLast?.map ReleaseCycle.lifecycle
      else none := by
  rw [lifecycle?_ofCycles, ← List.filterMap_reverse, lookup_filterMap_candidate?,
    ReleaseCycle.naming, List.getLast?_filter]

/-- The last cycle that names a version is the one behind which none names it. -/
theorem lifecycle?_ofCycles_eq_some_iff {cycles : List ReleaseCycle} {floor version : Version}
    {lifecycle : Lifecycle} :
    (ofCycles cycles floor).lifecycle? version = some lifecycle ↔
      floor ≤ version ∧ ∃ before cycle after, cycles = before ++ cycle :: after ∧
        Version.parse cycle.cycle = .ok version ∧ cycle.lifecycle = lifecycle ∧
        ∀ later ∈ after, Version.parse later.cycle ≠ .ok version := by
  rw [lifecycle?_ofCycles_eq, ReleaseCycle.naming, List.getLast?_filter,
    Option.ite_none_right_eq_some, Option.map_eq_some_iff]
  refine and_congr_right fun _ => ?_
  constructor
  · rintro ⟨cycle, found, told⟩
    obtain ⟨names, after, before, split, silent⟩ := List.find?_eq_some_iff_append.1 found
    have forward : cycles = before.reverse ++ cycle :: after.reverse := by
      rw [← List.reverse_reverse cycles, split]
      simp
    refine ⟨before.reverse, cycle, after.reverse, forward, by simpa using names, told, ?_⟩
    intro later member
    simpa using silent later (List.mem_reverse.1 member)
  · rintro ⟨before, cycle, after, rfl, names, told, silent⟩
    refine ⟨cycle, List.find?_eq_some_iff_append.2 ⟨by simpa using names, after.reverse,
      before.reverse, by simp, ?_⟩, told⟩
    intro later member
    simpa using silent later (List.mem_reverse.1 member)

/-! ## Lists that come to the same candidates -/

/-- Two lists come to the same candidates when the last cycles of every version above the floor say
the same. -/
theorem ofCycles_eq_iff {cycles others : List ReleaseCycle} {floor : Version} :
    ofCycles others floor = ofCycles cycles floor ↔
      ∀ version, floor ≤ version →
        (ReleaseCycle.naming version others).getLast?.map ReleaseCycle.lifecycle =
          (ReleaseCycle.naming version cycles).getLast?.map ReleaseCycle.lifecycle := by
  constructor
  · intro same version above
    have alike := congrArg (fun candidates => candidates.lifecycle? version) same
    rwa [lifecycle?_ofCycles_eq, lifecycle?_ofCycles_eq, if_pos above, if_pos above] at alike
  · intro alike
    apply eq_of_lifecycle?
    · rw [origin_ofCycles, origin_ofCycles]
    · intro version
      rw [lifecycle?_ofCycles_eq, lifecycle?_ofCycles_eq]
      by_cases above : floor ≤ version
      · rw [if_pos above, if_pos above, alike version above]
      · rw [if_neg above, if_neg above]

/-- Only the cycles of the versions above the floor count, each version's in their order. -/
theorem ofCycles_congr {cycles others : List ReleaseCycle} {floor : Version}
    (same : ∀ version, floor ≤ version →
      ReleaseCycle.naming version others = ReleaseCycle.naming version cycles) :
    ofCycles others floor = ofCycles cycles floor := by
  apply ofCycles_eq_iff.2
  intro version above
  rw [same version above]

/-- Cycles that name no version at or above the floor leave no trace. -/
theorem ofCycles_idle {before idle after : List ReleaseCycle} {floor : Version}
    (unusable : ∀ cycle ∈ idle, ∀ version, Version.parse cycle.cycle = .ok version →
      version < floor) :
    ofCycles (before ++ after) floor = ofCycles (before ++ idle ++ after) floor := by
  apply ofCycles_congr
  intro version above
  have none : ReleaseCycle.naming version idle = [] := by
    rw [ReleaseCycle.naming, List.filter_eq_nil_iff]
    intro cycle member names
    have below := unusable cycle member version (by simpa using names)
    exact Version.not_lt.2 above below
  simp only [ReleaseCycle.naming, List.filter_append] at none ⊢
  rw [none, List.append_nil]

/-- A higher floor takes away the versions below it and nothing else. -/
theorem ofCycles_restrict (cycles : List ReleaseCycle) {floor higher : Version}
    (raised : floor ≤ higher) :
    ofCycles cycles higher = (ofCycles cycles floor).restrict higher := by
  apply eq_of_lifecycle?
  · rw [restrict, origin_ofCycles, origin_ofCycles]
  · intro version
    rw [lifecycle?_restrict, lifecycle?_ofCycles_eq, lifecycle?_ofCycles_eq]
    by_cases above : higher ≤ version
    · have floored : floor ≤ version := by
        rw [Version.le_iff] at raised above ⊢
        omega
      rw [if_pos above, if_pos above, if_pos floored]
    · rw [if_neg above, if_neg above]

/-- The candidates of release cycles are live. They are the versions at or above the floor that some
cycle's identifier is read as, and they say about each what the last such cycle says. Hence lists
in which the cycles of every version are the same in the same order have the same candidates, cycles
that are not read as a version, or as one below the floor, make no difference, and a higher floor
restricts the candidates to the versions that are not below it. -/
theorem ofCycles_take_last (cycles : List ReleaseCycle) (floor : Version) :
    (ofCycles cycles floor).origin = .live ∧
    (∀ version, version ∈ (ofCycles cycles floor).versions ↔
      ∃ lifecycle, (ofCycles cycles floor).lifecycle? version = some lifecycle) ∧
    (∀ version, version ∈ (ofCycles cycles floor).versions ↔
      floor ≤ version ∧ ∃ cycle ∈ cycles, Version.parse cycle.cycle = .ok version) ∧
    (∀ version lifecycle, (ofCycles cycles floor).lifecycle? version = some lifecycle ↔
      floor ≤ version ∧ ∃ before cycle after, cycles = before ++ cycle :: after ∧
        Version.parse cycle.cycle = .ok version ∧ cycle.lifecycle = lifecycle ∧
        ∀ later ∈ after, Version.parse later.cycle ≠ .ok version) ∧
    (∀ others, (∀ version,
        ReleaseCycle.naming version others = ReleaseCycle.naming version cycles) →
      ofCycles others floor = ofCycles cycles floor) ∧
    (∀ before idle after, cycles = before ++ idle ++ after →
      (∀ cycle ∈ idle, ∀ version, Version.parse cycle.cycle = .ok version → version < floor) →
      ofCycles (before ++ after) floor = ofCycles cycles floor) ∧
    (∀ higher, floor ≤ higher →
      ofCycles cycles higher = (ofCycles cycles floor).restrict higher) := by
  refine ⟨origin_ofCycles cycles floor, fun _ => mem_versions_iff, fun version => ?_,
    fun _ _ => lifecycle?_ofCycles_eq_some_iff, fun others same => ?_, ?_,
    fun _ raised => ofCycles_restrict cycles raised⟩
  · simp only [mem_versions_ofCycles, ReleaseCycle.Usable, ← Version.parse_eq_ok_iff]
    grind
  · exact ofCycles_congr fun version _ => same version
  · rintro before idle after rfl unusable
    exact ofCycles_idle unusable

example : (ofCycles [⟨"3.9", .ended⟩, ⟨"3.9.1", .ended⟩, ⟨" 03.9 ", .unscheduled⟩] ⟨3, 9⟩).entries =
    [(⟨3, 9⟩, .unscheduled)] := by decide

end Candidates

end BuildMatrix
