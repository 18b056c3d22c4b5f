import BuildMatrix.Policy
import BuildMatrix.Proofs.Candidates.Collection
import BuildMatrix.Proofs.Version.Collection

/-!
# What the modes do

The versions found past their end are exactly the resolved ones whose lifecycle says so, each once
and lowest first. Every mode is described by that list and by the set of versions outside it.
-/

namespace BuildMatrix

/-- A warning about a version begins with what the failure says about it, whether or not the day of
its end is known. -/
theorem EndOfLife.text_warning (found : EndOfLife) (action : EndOfLifeAction) :
    (EndOfLifeWarning.mk found.version found.date action).text = found.text ++ action.remark := by
  obtain ⟨version, date⟩ := found
  cases date with
  | none => rfl
  | some day => rfl

/-- The candidates' lifecycle data say that support of the version is over on the day. -/
def Candidates.PastEnd (candidates : Candidates) (today : Date) (version : Version) : Prop :=
  (version, Lifecycle.ended) ∈ candidates.entries ∨
    ∃ date, (version, Lifecycle.scheduled date) ∈ candidates.entries ∧ date ≤ today

/-- The lifecycle data put a version past its end on the day, and the day that is named with it is
the scheduled one. -/
inductive Policy.Known (candidates : Candidates) (today : Date) : EndOfLife → Prop
  /-- Support has ended on a day that nobody knows. -/
  | ended {version : Version} (status : candidates.lifecycle? version = some .ended) :
      Known candidates today ⟨version, none⟩
  /-- Support has ended on the scheduled day, which may be this one. -/
  | scheduled {version : Version} {date : Date}
      (status : candidates.lifecycle? version = some (.scheduled date)) (past : date ≤ today) :
      Known candidates today ⟨version, some date⟩

/-- A version is past its end when something is known about that end. -/
theorem Candidates.pastEnd_iff {candidates : Candidates} {today : Date} {version : Version} :
    candidates.PastEnd today version ↔ ∃ date, Policy.Known candidates today ⟨version, date⟩ := by
  constructor
  · rintro (known | ⟨date, known, past⟩)
    · exact ⟨none, .ended (lifecycle?_eq_some_iff.2 known)⟩
    · exact ⟨some date, .scheduled (lifecycle?_eq_some_iff.2 known) past⟩
  · rintro ⟨_, known⟩
    cases known with
    | ended status => exact .inl (lifecycle?_eq_some_iff.1 status)
    | scheduled status past => exact .inr ⟨_, lifecycle?_eq_some_iff.1 status, past⟩

namespace Policy

variable {resolved : VersionSet} {candidates : Candidates} {today : Date}

/-! ## The versions found -/

/-- A version is known to be past its end when its lifecycle says so, and the day is that of the
lifecycle. -/
theorem known_iff {found : EndOfLife} :
    Known candidates today found ↔
      ∃ lifecycle, candidates.lifecycle? found.version = some lifecycle ∧
        lifecycle.isEndOfLife today = true ∧ lifecycle.date? = found.date := by
  constructor
  · intro known
    cases known with
    | ended status => exact ⟨.ended, status, rfl, rfl⟩
    | @scheduled version date status past =>
      exact ⟨.scheduled date, status, decide_eq_true past, rfl⟩
  · obtain ⟨version, day⟩ := found
    rintro ⟨lifecycle, status, past, rfl⟩
    cases lifecycle with
    | scheduled date => exact .scheduled status (of_decide_eq_true past)
    | unscheduled => exact nomatch past
    | ended => exact .ended status

/-- What is found is a resolved version past its end, with the day that is known of it. -/
theorem mem_expired_iff {found : EndOfLife} :
    found ∈ expired resolved candidates today ↔
      found.version ∈ resolved ∧ Known candidates today found := by
  obtain ⟨version, date⟩ := found
  rw [known_iff]
  simp only [expired, List.mem_filterMap, Option.bind_eq_some_iff, Option.ite_none_right_eq_some,
    Option.some.injEq, EndOfLife.mk.injEq, VersionSet.mem_toList]
  constructor
  · rintro ⟨_, member, lifecycle, known, past, rfl, day⟩
    exact ⟨member, lifecycle, known, past, day⟩
  · rintro ⟨member, lifecycle, known, past, day⟩
    exact ⟨version, member, lifecycle, known, past, rfl, day⟩

/-- The versions found are the resolved ones past their end. -/
theorem exists_mem_expired_iff {version : Version} :
    (∃ found ∈ expired resolved candidates today, found.version = version) ↔
      version ∈ resolved ∧ candidates.PastEnd today version := by
  rw [Candidates.pastEnd_iff]
  constructor
  · rintro ⟨⟨_, date⟩, member, rfl⟩
    obtain ⟨selected, known⟩ := mem_expired_iff.1 member
    exact ⟨selected, date, known⟩
  · rintro ⟨selected, date, known⟩
    have member : ⟨version, date⟩ ∈ expired resolved candidates today :=
      mem_expired_iff.2 ⟨selected, known⟩
    exact ⟨_, member, rfl⟩

/-- Nothing is found exactly when no resolved version is past its end. -/
theorem expired_eq_nil_iff :
    expired resolved candidates today = [] ↔
      ∀ version ∈ resolved, ¬ candidates.PastEnd today version := by
  rw [List.eq_nil_iff_forall_not_mem]
  constructor
  · intro none version member past
    obtain ⟨found, among, -⟩ := exists_mem_expired_iff.2 ⟨member, past⟩
    exact none found among
  · intro none found member
    obtain ⟨selected, past⟩ := exists_mem_expired_iff.1 ⟨found, member, rfl⟩
    exact none found.version selected past

/-- The versions found ascend strictly. -/
theorem expired_ascending (resolved : VersionSet) (candidates : Candidates) (today : Date) :
    (expired resolved candidates today).Pairwise fun lower higher =>
      lower.version < higher.version := by
  refine List.Pairwise.filterMap _ (fun lower higher less first found second also => ?_)
    resolved.ascending
  simp only [Option.bind_eq_some_iff, Option.ite_none_right_eq_some, Option.some.injEq]
    at found also
  obtain ⟨_, -, -, rfl⟩ := found
  obtain ⟨_, -, -, rfl⟩ := also
  exact less

/-- The versions found, as a set. -/
def expiredVersions (resolved : VersionSet) (candidates : Candidates) (today : Date) :
    VersionSet where
  toList := (expired resolved candidates today).map EndOfLife.version
  ascending := List.pairwise_map.2 (expired_ascending resolved candidates today)

/-- The versions found are the resolved ones past their end. -/
theorem mem_expiredVersions {version : Version} :
    version ∈ expiredVersions resolved candidates today ↔
      version ∈ resolved ∧ candidates.PastEnd today version := by
  rw [← exists_mem_expired_iff]
  exact List.mem_map

/-- The resolved versions that are not past their end. -/
def supported (resolved : VersionSet) (candidates : Candidates) (today : Date) : VersionSet :=
  resolved.filter fun version =>
    !(expired resolved candidates today).any fun past => past.version = version

/-- The supported versions are the resolved ones that are not past their end. -/
@[simp]
theorem mem_supported {version : Version} :
    version ∈ supported resolved candidates today ↔
      version ∈ resolved ∧ ¬ candidates.PastEnd today version := by
  rw [supported, VersionSet.mem_filter]
  refine and_congr_right fun member => ?_
  have found : candidates.PastEnd today version ↔
      ∃ past ∈ expired resolved candidates today, past.version = version :=
    ⟨fun past => exists_mem_expired_iff.2 ⟨member, past⟩,
      fun past => (exists_mem_expired_iff.1 past).2⟩
  rw [found]
  simp

/-! ## The modes -/

/-- Warning keeps everything that was resolved, with a warning for each version found. -/
theorem apply_warn :
    apply .warn resolved candidates today =
      .ok ⟨resolved, warnings .kept (expired resolved candidates today)⟩ := by
  unfold apply
  cases expired resolved candidates today <;> rfl

/-- Failing is up to whether something is found, and names all of it. -/
theorem apply_fail :
    apply .fail resolved candidates today =
      if expired resolved candidates today = [] then .ok ⟨resolved, []⟩
      else .error (.endOfLife (expired resolved candidates today)) := by
  unfold apply
  cases expired resolved candidates today <;> rfl

/-- Stripping fails only when something is found and nothing else is there. -/
theorem apply_strip :
    apply .strip resolved candidates today =
      if expired resolved candidates today ≠ [] ∧
          (supported resolved candidates today).isEmpty = true then
        .error (.noMatchingVersions .supported)
      else .ok ⟨supported resolved candidates today,
        warnings .removed (expired resolved candidates today)⟩ := by
  unfold apply
  split
  · next none =>
    have all : supported resolved candidates today = resolved := by
      refine VersionSet.ext fun version => ?_
      rw [mem_supported, and_iff_left_iff_imp]
      exact expired_eq_nil_iff.1 none version
    rw [none, all]
    rfl
  · next some =>
    show (if (supported resolved candidates today).isEmpty = true then _ else _) = _
    by_cases bare : (supported resolved candidates today).isEmpty = true
    · rw [if_pos bare, if_pos ⟨some, bare⟩]
    · rw [if_neg bare, if_neg fun both => bare both.2]
      rfl

/-- What a policy leaves are some of the resolved versions, at least one if there was one. -/
theorem apply_keeps {mode : EndOfLifeMode} {outcome : Outcome}
    (applied : apply mode resolved candidates today = .ok outcome) :
    (∀ version ∈ outcome.versions, version ∈ resolved) ∧
      ((∃ version, version ∈ resolved) → ∃ version, version ∈ outcome.versions) := by
  cases mode with
  | warn =>
    rw [apply_warn] at applied
    cases applied
    exact ⟨fun version member => member, id⟩
  | fail =>
    rw [apply_fail] at applied
    split at applied
    · cases applied
      exact ⟨fun version member => member, id⟩
    · exact nomatch applied
  | strip =>
    rw [apply_strip] at applied
    split at applied
    · exact nomatch applied
    · next leftOver =>
      cases applied
      refine ⟨fun version member => (mem_supported.1 member).1, fun ⟨version, member⟩ => ?_⟩
      by_contra bare
      push Not at bare
      have past : candidates.PastEnd today version := by
        by_contra current
        exact bare version (mem_supported.2 ⟨member, current⟩)
      refine leftOver ⟨fun none => ?_, VersionSet.isEmpty_iff.2 bare⟩
      exact expired_eq_nil_iff.1 none version member past

/-- Unless they are only warned about, versions past their end do not get through. -/
theorem apply_rejects {mode : EndOfLifeMode} {outcome : Outcome} (strict : mode ≠ .warn)
    (applied : apply mode resolved candidates today = .ok outcome) :
    ∀ version ∈ outcome.versions, ¬ candidates.PastEnd today version := by
  cases mode with
  | warn => exact absurd rfl strict
  | fail =>
    rw [apply_fail] at applied
    split at applied
    · next none =>
      cases applied
      exact expired_eq_nil_iff.1 none
    · exact nomatch applied
  | strip =>
    rw [apply_strip] at applied
    split at applied
    · exact nomatch applied
    · cases applied
      exact fun version member => (mem_supported.1 member).2

/-- The warnings about kept versions are about exactly those past their end, lowest first. -/
theorem apply_warn_reports {outcome : Outcome}
    (applied : apply .warn resolved candidates today = .ok outcome) :
    (outcome.warnings.map fun warning => warning.version).Pairwise (· < ·) ∧
      ∀ version, version ∈ outcome.warnings.map (fun warning => warning.version) ↔
        version ∈ outcome.versions ∧ candidates.PastEnd today version := by
  rw [apply_warn] at applied
  cases applied
  have reported : (warnings .kept (expired resolved candidates today)).map
      (fun warning => warning.version) =
        (expired resolved candidates today).map EndOfLife.version := by
    rw [warnings, List.map_map]
    rfl
  rw [reported]
  exact ⟨(expiredVersions resolved candidates today).ascending, fun _ => mem_expiredVersions⟩

/-! ## One list for all modes -/

/-- Nothing is left exactly when everything that was resolved is found. -/
theorem supported_isEmpty_iff :
    (supported resolved candidates today).isEmpty = true ↔
      (expired resolved candidates today).map EndOfLife.version = resolved.toList := by
  have all : (expired resolved candidates today).map EndOfLife.version = resolved.toList ↔
      expiredVersions resolved candidates today = resolved :=
    @VersionSet.toList_inj (expiredVersions resolved candidates today) resolved
  rw [all, VersionSet.isEmpty_iff]
  constructor
  · intro bare
    refine VersionSet.ext fun version => ?_
    rw [mem_expiredVersions, and_iff_left_iff_imp]
    intro member
    have gone := bare version
    rw [mem_supported] at gone
    exact not_not.1 fun current => gone ⟨member, current⟩
  · intro all version left
    obtain ⟨member, current⟩ := mem_supported.1 left
    exact current (mem_expiredVersions.1 (all.symm ▸ member)).2

/-- What is left are the resolved versions that are not found. -/
theorem supported_eq_filter :
    supported resolved candidates today = resolved.filter fun version =>
      version ∉ (expired resolved candidates today).map EndOfLife.version := by
  refine VersionSet.ext fun version => ?_
  have found : version ∈ (expired resolved candidates today).map EndOfLife.version ↔
      version ∈ resolved ∧ candidates.PastEnd today version := mem_expiredVersions
  rw [mem_supported, VersionSet.mem_filter, decide_eq_true_eq, found]
  tauto

/-- All modes judge one list, lowest version first, of the resolved versions past their end. A mode
that warns keeps them with a warning each; one that strips removes them with a warning each, unless
nothing else was resolved; one that fails names them as they are. Every warning repeats what the
failure says about the version and adds what was done. -/
theorem modes_judge_one_list (resolved : VersionSet) (candidates : Candidates) (today : Date) :
    ∃ past : List EndOfLife,
      past.Pairwise (fun lower higher => lower.version < higher.version) ∧
      (∀ found, found ∈ past ↔ found.version ∈ resolved ∧ Known candidates today found) ∧
      apply .warn resolved candidates today =
        .ok ⟨resolved, past.map fun found => ⟨found.version, found.date, .kept⟩⟩ ∧
      apply .strip resolved candidates today =
        (if past ≠ [] ∧ past.map EndOfLife.version = resolved.toList then
          .error (.noMatchingVersions .supported)
        else .ok ⟨resolved.filter fun version => version ∉ past.map EndOfLife.version,
          past.map fun found => ⟨found.version, found.date, .removed⟩⟩) ∧
      apply .fail resolved candidates today =
        (if past = [] then .ok ⟨resolved, []⟩ else .error (.endOfLife past)) ∧
      ∀ found : EndOfLife,
        (EndOfLifeWarning.mk found.version found.date .kept).text = found.text ++ " (kept)" ∧
        (EndOfLifeWarning.mk found.version found.date .removed).text =
          found.text ++ " (removed)" := by
  refine ⟨expired resolved candidates today, expired_ascending resolved candidates today,
    fun found => mem_expired_iff, apply_warn, ?_, apply_fail,
    fun found => ⟨found.text_warning .kept, found.text_warning .removed⟩⟩
  rw [apply_strip, ← supported_eq_filter]
  exact if_congr (and_congr_right' supported_isEmpty_iff) rfl rfl

end Policy

end BuildMatrix
