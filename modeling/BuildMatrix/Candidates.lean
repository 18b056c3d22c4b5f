import BuildMatrix.Lifecycle
import BuildMatrix.Version.Collection

/-!
# Candidates

The versions a project may resolve to, each with what is known about the end of its support.
Candidates are read from the release cycles of a registry, or taken from the table that ships with
the program. A cycle counts when its identifier is a version at or above a floor, and of several
cycles for one version the last one counts.
-/

namespace BuildMatrix

/-- Where candidates come from. -/
inductive CandidateOrigin where
  /-- A registry answered. -/
  | live
  /-- The table that ships with the program. -/
  | builtIn
deriving DecidableEq

/-- The word for an origin. -/
def CandidateOrigin.name : CandidateOrigin → String
  | .live => "live"
  | .builtIn => "built-in"

/-- Candidate versions with their lifecycles. -/
structure Candidates where
  /-- Every version with its lifecycle, lowest version first. -/
  entries : List (Version × Lifecycle)
  /-- The versions ascend strictly, so each has one lifecycle. -/
  ascending : entries.Pairwise (fun left right => left.1 < right.1)
  /-- Where they come from. -/
  origin : CandidateOrigin
deriving DecidableEq

namespace Candidates

/-- The candidate versions. -/
def versions (candidates : Candidates) : VersionSet where
  toList := candidates.entries.map Prod.fst
  ascending := List.pairwise_map.2 candidates.ascending

/-- What is known about a version, if it is a candidate. -/
def lifecycle? (candidates : Candidates) (version : Version) : Option Lifecycle :=
  candidates.entries.lookup version

/-- Put an entry at its place in an ascending list, replacing the entry of the same version. -/
def putAscending (entry : Version × Lifecycle) :
    List (Version × Lifecycle) → List (Version × Lifecycle)
  | [] => [entry]
  | first :: rest =>
    if entry.1 < first.1 then entry :: first :: rest
    else if entry.1 = first.1 then entry :: rest
    else first :: putAscending entry rest

/-- Putting an entry adds no other one. -/
theorem fst_of_mem_putAscending {entry other : Version × Lifecycle}
    {entries : List (Version × Lifecycle)} (member : other ∈ putAscending entry entries) :
    other = entry ∨ other ∈ entries := by
  induction entries with
  | nil => simpa [putAscending] using member
  | cons first rest ih =>
    rw [putAscending] at member
    split at member
    · simpa using member
    · split at member
      · simp only [List.mem_cons] at member ⊢
        grind
      · simp only [List.mem_cons] at member ⊢
        grind

/-- Putting an entry in its place keeps the versions ascending. -/
theorem ascending_putAscending (entry : Version × Lifecycle) {entries : List (Version × Lifecycle)}
    (ascending : entries.Pairwise (fun left right => left.1 < right.1)) :
    (putAscending entry entries).Pairwise (fun left right => left.1 < right.1) := by
  induction entries with
  | nil => simp [putAscending]
  | cons first rest ih =>
    obtain ⟨above, tail⟩ := List.pairwise_cons.1 ascending
    rw [putAscending]
    split
    · next lower =>
      refine List.pairwise_cons.2 ⟨fun other member => ?_, ascending⟩
      rcases List.mem_cons.1 member with rfl | later
      · exact lower
      · exact Version.lt_trans lower (above other later)
    · split
      · next same =>
        exact List.pairwise_cons.2 ⟨fun other member => same ▸ above other member, tail⟩
      · next notLower different =>
        refine List.pairwise_cons.2 ⟨fun other member => ?_, ih tail⟩
        rcases fst_of_mem_putAscending member with rfl | later
        · rcases Version.lt_trichotomy other.1 first.1 with lower | same | higher
          · exact absurd lower notLower
          · exact absurd same different
          · exact higher
        · exact above other later

/-- The candidates with one more entry, which replaces an earlier one of the same version. -/
def put (candidates : Candidates) (entry : Version × Lifecycle) : Candidates where
  entries := putAscending entry candidates.entries
  ascending := ascending_putAscending entry candidates.ascending
  origin := candidates.origin

/-- The entry of a release cycle, if its identifier is a version at or above `floor`. -/
def candidate? (floor : Version) (cycle : ReleaseCycle) : Option (Version × Lifecycle) :=
  match Version.parse cycle.cycle with
  | .ok version => if floor ≤ version then some (version, cycle.lifecycle) else none
  | .error _ => none

/-- The candidates of a registry's release cycles. -/
def ofCycles (cycles : List ReleaseCycle) (floor : Version) : Candidates :=
  (cycles.filterMap (candidate? floor)).foldl put ⟨[], .nil, .live⟩

/-- The table that ships with the program: each release is supported for five years. -/
def builtIn : Candidates where
  entries :=
    [(⟨3, 9⟩, .scheduled ⟨2025, 10, 31, by decide⟩),
      (⟨3, 10⟩, .scheduled ⟨2026, 10, 31, by decide⟩),
      (⟨3, 11⟩, .scheduled ⟨2027, 10, 31, by decide⟩),
      (⟨3, 12⟩, .scheduled ⟨2028, 10, 31, by decide⟩),
      (⟨3, 13⟩, .scheduled ⟨2029, 10, 31, by decide⟩),
      (⟨3, 14⟩, .scheduled ⟨2030, 10, 31, by decide⟩)]
  ascending := by decide
  origin := .builtIn

/-- The floor below which release cycles are not taken unless asked for. -/
def defaultFloor : Version := ⟨3, 9⟩

end Candidates

end BuildMatrix
