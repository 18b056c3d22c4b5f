import BuildMatrix.Candidates
import BuildMatrix.Proofs.Version.Spelling

/-!
# Candidates as a map from versions to lifecycles

Candidates are known by what they say about each version. Putting an entry changes what is said
about its own version only, so the candidates of release cycles say about a version what the last
usable cycle of that version said.
-/

namespace BuildMatrix

/-- The cycle's identifier spells the version, white space around it allowed, and the version is not
below the floor. -/
def ReleaseCycle.Usable (floor : Version) (cycle : ReleaseCycle) (version : Version) : Prop :=
  version.Spelled (Text.trim cycle.cycle.toList) ∧ floor ≤ version

namespace Candidates

/-! ## Entries -/

/-- The first entry decides about its own version, the others about every other. -/
theorem lookup_entries (entry : Version × Lifecycle) (rest : List (Version × Lifecycle))
    (version : Version) :
    (entry :: rest).lookup version =
      if version = entry.1 then some entry.2 else rest.lookup version := by
  rw [List.lookup_cons]
  by_cases same : version = entry.1
  · rw [if_pos same, same, beq_self_eq_true]
  · rw [if_neg same, beq_eq_false_iff_ne.2 same]

/-- What is known about a version is its one entry. -/
theorem lifecycle?_eq_some_iff {candidates : Candidates} {version : Version}
    {lifecycle : Lifecycle} :
    candidates.lifecycle? version = some lifecycle ↔ (version, lifecycle) ∈ candidates.entries := by
  obtain ⟨entries, ascending, origin⟩ := candidates
  show entries.lookup version = some lifecycle ↔ (version, lifecycle) ∈ entries
  induction entries with
  | nil => simp
  | cons first rest ih =>
    obtain ⟨above, tail⟩ := List.pairwise_cons.1 ascending
    rw [lookup_entries, List.mem_cons, Prod.ext_iff]
    by_cases same : version = first.1
    · have absent : (version, lifecycle) ∉ rest := fun later =>
        Version.lt_irrefl version (same ▸ above (version, lifecycle) later)
      simp [same, eq_comm, same ▸ absent]
    · simp [same, ih tail]

/-- The versions are those about which something is known. -/
theorem mem_versions_iff {candidates : Candidates} {version : Version} :
    version ∈ candidates.versions ↔ ∃ lifecycle, candidates.lifecycle? version = some lifecycle := by
  simp only [lifecycle?_eq_some_iff]
  show version ∈ candidates.entries.map Prod.fst ↔ _
  simp

/-- Putting an entry changes what is found for its version and for no other one. -/
theorem lookup_putAscending (entry : Version × Lifecycle) (version : Version)
    (entries : List (Version × Lifecycle)) :
    (putAscending entry entries).lookup version =
      if version = entry.1 then some entry.2 else entries.lookup version := by
  induction entries with
  | nil => rw [putAscending, lookup_entries]
  | cons first rest ih =>
    rw [putAscending]
    split
    · rw [lookup_entries]
    · split
      · next replaced =>
        rw [lookup_entries, lookup_entries, replaced]
        by_cases same : version = first.1 <;> simp [same]
      · next notLower different =>
        rw [lookup_entries, lookup_entries, ih]
        by_cases same : version = first.1
        · simp [same, Ne.symm different]
        · simp [same]

/-- An entry decides what is known about its version, and about no other. -/
theorem lifecycle?_put (candidates : Candidates) (entry : Version × Lifecycle)
    (version : Version) :
    (candidates.put entry).lifecycle? version =
      if version = entry.1 then some entry.2 else candidates.lifecycle? version :=
  lookup_putAscending entry version candidates.entries

/-- Of the entries put in one after another, the last one of a version decides. -/
theorem lifecycle?_foldl_put (entries : List (Version × Lifecycle)) (start : Candidates)
    (version : Version) :
    (entries.foldl put start).lifecycle? version =
      (entries.reverse.lookup version).or (start.lifecycle? version) := by
  induction entries generalizing start with
  | nil => rfl
  | cons entry rest ih =>
    rw [List.foldl_cons, ih, List.reverse_cons, List.lookup_append, Option.or_assoc,
      lifecycle?_put, lookup_entries]
    by_cases same : version = entry.1 <;> simp [same]

/-- Putting entries leaves the origin of candidates alone. -/
theorem origin_foldl_put (entries : List (Version × Lifecycle)) (start : Candidates) :
    (entries.foldl put start).origin = start.origin := by
  induction entries generalizing start with
  | nil => rfl
  | cons entry rest ih => exact ih (start.put entry)

/-! ## Release cycles -/

/-- A cycle becomes an entry exactly when it is usable, with its version and what it says. -/
theorem candidate?_eq_some_iff {floor : Version} {cycle : ReleaseCycle}
    {entry : Version × Lifecycle} :
    candidate? floor cycle = some entry ↔
      cycle.Usable floor entry.1 ∧ cycle.lifecycle = entry.2 := by
  obtain ⟨version, lifecycle⟩ := entry
  rw [ReleaseCycle.Usable, ← Version.parse_eq_ok_iff, candidate?]
  cases Version.parse cycle.cycle with
  | error failure => simp
  | ok found =>
    by_cases floored : floor ≤ found
    · simp only [floored, if_true, Option.some.injEq, Prod.mk.injEq, Except.ok.injEq]
      constructor
      · rintro ⟨rfl, rfl⟩
        exact ⟨⟨rfl, floored⟩, rfl⟩
      · rintro ⟨⟨rfl, -⟩, rfl⟩
        exact ⟨rfl, rfl⟩
    · simp only [floored, if_false, reduceCtorEq, Except.ok.injEq, false_iff, not_and, and_imp]
      rintro rfl above
      exact absurd above floored

/-- The candidates of cycles say about a version what the last usable cycle of it says. -/
theorem lifecycle?_ofCycles (cycles : List ReleaseCycle) (floor version : Version) :
    (ofCycles cycles floor).lifecycle? version =
      (cycles.filterMap (candidate? floor)).reverse.lookup version := by
  rw [ofCycles, lifecycle?_foldl_put]
  exact Option.or_none

/-- The candidates of release cycles are live. -/
@[simp]
theorem origin_ofCycles (cycles : List ReleaseCycle) (floor : Version) :
    (ofCycles cycles floor).origin = .live :=
  origin_foldl_put _ _

/-- The candidates of cycles are the versions of the usable ones. -/
theorem mem_versions_ofCycles {cycles : List ReleaseCycle} {floor version : Version} :
    version ∈ (ofCycles cycles floor).versions ↔ ∃ cycle ∈ cycles, cycle.Usable floor version := by
  rw [mem_versions_iff, ← Option.isSome_iff_exists, lifecycle?_ofCycles, List.lookup_isSome_iff]
  constructor
  · rintro ⟨entry, member, same⟩
    obtain ⟨cycle, among, found⟩ := List.mem_filterMap.1 (List.mem_reverse.1 member)
    rw [eq_of_beq same]
    exact ⟨cycle, among, (candidate?_eq_some_iff.1 found).1⟩
  · rintro ⟨cycle, among, usable⟩
    have found : candidate? floor cycle = some (version, cycle.lifecycle) :=
      candidate?_eq_some_iff.2 ⟨usable, rfl⟩
    exact ⟨_, List.mem_reverse.2 (List.mem_filterMap.2 ⟨cycle, among, found⟩), beq_self_eq_true _⟩

end Candidates

end BuildMatrix
