import BuildMatrix.Proofs.Policy

/-!
# Judging on later days

What is past its end stays past it, so on a later day the modes judge against at least the same
versions. A failure stays a failure and names at least as much, and what stripping leaves on a later
day it leaves before. Stripping on one day and again on a later one comes to stripping on the later
day alone, and what was stripped passes the strict mode of the same day.
-/

namespace BuildMatrix

variable {resolved : VersionSet} {candidates : Candidates} {today later : Date}

/-- A version past its end stays past it. -/
theorem Candidates.PastEnd.mono {version : Version} (past : candidates.PastEnd today version)
    (order : today ≤ later) : candidates.PastEnd later version := by
  rcases past with known | ⟨date, known, reached⟩
  · exact .inl known
  · have reachedLater : date ≤ later := Date.le_trans reached order
    exact .inr ⟨date, known, reachedLater⟩

namespace Policy

/-! ## What is found, and what is left -/

/-- What puts a version past its end, and the day that is named with it, stay the same. -/
theorem Known.mono {found : EndOfLife} (known : Known candidates today found)
    (order : today ≤ later) : Known candidates later found := by
  cases known with
  | ended status => exact .ended status
  | scheduled status past =>
    have pastLater := Date.le_trans past order
    exact .scheduled status pastLater

/-- On a later day at least as much is found. -/
theorem expired_subset (order : today ≤ later) :
    expired resolved candidates today ⊆ expired resolved candidates later := by
  intro found member
  have judged := mem_expired_iff.1 member
  apply mem_expired_iff.2
  exact ⟨judged.1, judged.2.mono order⟩

/-- What is left on a later day is left before. -/
theorem mem_supported_of_later {version : Version} (order : today ≤ later)
    (left : version ∈ supported resolved candidates later) :
    version ∈ supported resolved candidates today := by
  have current := mem_supported.1 left
  apply mem_supported.2
  exact ⟨current.1, fun past => current.2 (past.mono order)⟩

/-- What is left on a later day of what is left today is what is left on the later day. -/
theorem supported_supported (order : today ≤ later) :
    supported (supported resolved candidates today) candidates later =
      supported resolved candidates later := by
  apply VersionSet.ext
  intro version
  constructor
  · intro left
    have current := mem_supported.1 left
    have selected := (mem_supported.1 current.1).1
    exact mem_supported.2 ⟨selected, current.2⟩
  · intro left
    have before := mem_supported_of_later order left
    exact mem_supported.2 ⟨before, (mem_supported.1 left).2⟩

/-- Nothing is found among the versions that are left. -/
theorem expired_supported :
    expired (supported resolved candidates today) candidates today = [] := by
  apply expired_eq_nil_iff.2
  intro version left
  exact (mem_supported.1 left).2

/-! ## When stripping succeeds -/

/-- Versions are left unless there were none in the first place. -/
def Leaves (resolved : VersionSet) (candidates : Candidates) (today : Date) : Prop :=
  (∃ version, version ∈ resolved) → ∃ version, version ∈ supported resolved candidates today

/-- When something is left, stripping leaves the supported versions and warns about the others. -/
theorem apply_strip_of_leaves (leaves : Leaves resolved candidates today) :
    apply .strip resolved candidates today =
      .ok ⟨supported resolved candidates today,
        warnings .removed (expired resolved candidates today)⟩ := by
  rw [apply_strip, if_neg]
  rintro ⟨some, bare⟩
  obtain ⟨found, member⟩ := List.exists_mem_of_ne_nil _ some
  obtain ⟨version, left⟩ := leaves ⟨found.version, (mem_expired_iff.1 member).1⟩
  exact VersionSet.isEmpty_iff.1 bare version left

/-- When nothing is left of resolved versions, stripping fails. -/
theorem apply_strip_of_not_leaves (bare : ¬ Leaves resolved candidates today) :
    apply .strip resolved candidates today = .error (.noMatchingVersions .supported) := by
  obtain ⟨⟨version, selected⟩, none⟩ := Classical.not_imp.1 bare
  have gone : ∀ other, other ∉ supported resolved candidates today := not_exists.1 none
  have some : expired resolved candidates today ≠ [] := by
    intro nothing
    have current := expired_eq_nil_iff.1 nothing version selected
    exact gone version (mem_supported.2 ⟨selected, current⟩)
  rw [apply_strip, if_pos]
  exact ⟨some, VersionSet.isEmpty_iff.2 gone⟩

/-- Stripping succeeds exactly when something is left, and with nothing but that. -/
theorem apply_strip_eq_ok_iff {outcome : Outcome} :
    apply .strip resolved candidates today = .ok outcome ↔
      Leaves resolved candidates today ∧
        outcome = ⟨supported resolved candidates today,
          warnings .removed (expired resolved candidates today)⟩ := by
  by_cases leaves : Leaves resolved candidates today
  · rw [apply_strip_of_leaves leaves]
    simp [leaves, eq_comm]
  · rw [apply_strip_of_not_leaves leaves]
    simp [leaves]

/-- If versions are left on a later day, versions are left before. -/
theorem Leaves.of_later (order : today ≤ later) (leaves : Leaves resolved candidates later) :
    Leaves resolved candidates today := by
  intro some
  obtain ⟨version, left⟩ := leaves some
  exact ⟨version, mem_supported_of_later order left⟩

/-- Versions that were left are judged on a later day as if nothing had been removed. -/
theorem leaves_supported_iff (order : today ≤ later) (leaves : Leaves resolved candidates today) :
    Leaves (supported resolved candidates today) candidates later ↔
      Leaves resolved candidates later := by
  have inhabited : (∃ version, version ∈ supported resolved candidates today) ↔
      ∃ version, version ∈ resolved := by
    constructor
    · rintro ⟨version, left⟩
      exact ⟨version, (mem_supported.1 left).1⟩
    · exact leaves
  unfold Leaves
  rw [supported_supported order, inhabited]

/-- Stripping what was stripped before leaves what stripping once leaves, and fails when it does. -/
theorem apply_strip_supported (order : today ≤ later) (leaves : Leaves resolved candidates today) :
    (apply .strip (supported resolved candidates today) candidates later).map Outcome.versions =
      (apply .strip resolved candidates later).map Outcome.versions := by
  have alike := leaves_supported_iff order leaves
  by_cases again : Leaves resolved candidates later
  · rw [apply_strip_of_leaves again, apply_strip_of_leaves (alike.2 again)]
    show Except.ok _ = Except.ok _
    rw [supported_supported order]
  · rw [apply_strip_of_not_leaves again, apply_strip_of_not_leaves fun left => again (alike.1 left)]

/-! ## Two days -/

/-- A version past its end stays past it. What makes the strict mode fail makes it fail on every
later day, where it names at least the same versions with the same days. If stripping succeeds on
the later day it does so before, and leaves then whatever it leaves later. What stripping has left
is stripped on the later day to the same versions as everything that was resolved, or to none in the
same cases; and on its own day the strict mode takes it as it is. -/
theorem judgement_moves_forward (resolved : VersionSet) (candidates : Candidates)
    {today later : Date} (order : today ≤ later) :
    (∀ version lifecycle, candidates.lifecycle? version = some lifecycle →
      lifecycle.isEndOfLife today = true → lifecycle.isEndOfLife later = true) ∧
    (∀ failure, apply .fail resolved candidates today = .error failure →
      ∃ past more, failure = .endOfLife past ∧
        apply .fail resolved candidates later = .error (.endOfLife more) ∧ past ⊆ more) ∧
    (∀ last, apply .strip resolved candidates later = .ok last →
      ∃ first, apply .strip resolved candidates today = .ok first ∧
        ∀ version ∈ last.versions, version ∈ first.versions) ∧
    ∀ first, apply .strip resolved candidates today = .ok first →
      (apply .strip first.versions candidates later).map Outcome.versions =
        (apply .strip resolved candidates later).map Outcome.versions ∧
      apply .fail first.versions candidates today = .ok ⟨first.versions, []⟩ := by
  refine ⟨fun _ _ _ past => Lifecycle.isEndOfLife_mono order past, ?rejected, ?left, ?again⟩
  case rejected =>
    intro failure rejected
    have more : expired resolved candidates today ⊆ expired resolved candidates later :=
      expired_subset order
    rw [apply_fail] at rejected
    split at rejected
    · exact nomatch rejected
    · next some =>
      cases rejected
      have someLater : expired resolved candidates later ≠ [] := by
        intro none
        rw [none] at more
        exact some (List.subset_nil.1 more)
      refine ⟨_, _, rfl, ?_, more⟩
      rw [apply_fail, if_neg someLater]
  case left =>
    intro last stripped
    obtain ⟨leaves, rfl⟩ := apply_strip_eq_ok_iff.1 stripped
    refine ⟨_, apply_strip_of_leaves (leaves.of_later order), ?_⟩
    intro version left
    exact mem_supported_of_later order left
  case again =>
    intro first stripped
    obtain ⟨leaves, rfl⟩ := apply_strip_eq_ok_iff.1 stripped
    refine ⟨apply_strip_supported order leaves, ?_⟩
    rw [apply_fail, if_pos expired_supported]

/-- Three releases, of which the first two end one year after another. -/
def firstReleases : VersionSet where
  toList := [⟨3, 9⟩, ⟨3, 10⟩, ⟨3, 11⟩]
  ascending := by decide

/-- The first release has ended today, and the second one ends on the later day. -/
theorem judgement_moves_forward_of_second_end :
    (⟨2026, 1, 1, by decide⟩ : Date) ≤ ⟨2026, 10, 31, by decide⟩ ∧
    apply .fail firstReleases Candidates.builtIn ⟨2026, 1, 1, by decide⟩ =
      .error (.endOfLife [⟨⟨3, 9⟩, some ⟨2025, 10, 31, by decide⟩⟩]) ∧
    (∃ more, apply .fail firstReleases Candidates.builtIn ⟨2026, 10, 31, by decide⟩ =
        .error (.endOfLife more) ∧
      ⟨⟨3, 9⟩, some ⟨2025, 10, 31, by decide⟩⟩ ∈ more) ∧
    apply .strip firstReleases Candidates.builtIn ⟨2026, 1, 1, by decide⟩ =
      .ok ⟨⟨[⟨3, 10⟩, ⟨3, 11⟩], by decide⟩,
        [⟨⟨3, 9⟩, some ⟨2025, 10, 31, by decide⟩, .removed⟩]⟩ ∧
    (apply .strip ⟨[⟨3, 10⟩, ⟨3, 11⟩], by decide⟩ Candidates.builtIn
        ⟨2026, 10, 31, by decide⟩).map Outcome.versions =
      (apply .strip firstReleases Candidates.builtIn
        ⟨2026, 10, 31, by decide⟩).map Outcome.versions ∧
    apply .fail ⟨[⟨3, 10⟩, ⟨3, 11⟩], by decide⟩ Candidates.builtIn ⟨2026, 1, 1, by decide⟩ =
      .ok ⟨⟨[⟨3, 10⟩, ⟨3, 11⟩], by decide⟩, []⟩ := by
  have order : (⟨2026, 1, 1, by decide⟩ : Date) ≤ ⟨2026, 10, 31, by decide⟩ := by decide
  have rejected : apply .fail firstReleases Candidates.builtIn ⟨2026, 1, 1, by decide⟩ =
      .error (.endOfLife [⟨⟨3, 9⟩, some ⟨2025, 10, 31, by decide⟩⟩]) := by decide
  have stripped : apply .strip firstReleases Candidates.builtIn ⟨2026, 1, 1, by decide⟩ =
      .ok ⟨⟨[⟨3, 10⟩, ⟨3, 11⟩], by decide⟩,
        [⟨⟨3, 9⟩, some ⟨2025, 10, 31, by decide⟩, .removed⟩]⟩ := by decide
  obtain ⟨-, failing, -, stripping⟩ :=
    judgement_moves_forward firstReleases Candidates.builtIn order
  obtain ⟨past, more, same, rejectedLater, within⟩ := failing _ rejected
  obtain rfl := ResolveError.endOfLife.inj same
  obtain ⟨again, accepted⟩ := stripping _ stripped
  have named := within (List.mem_singleton_self _)
  exact ⟨order, rejected, ⟨more, rejectedLater, named⟩, stripped, again, accepted⟩

end Policy

end BuildMatrix
