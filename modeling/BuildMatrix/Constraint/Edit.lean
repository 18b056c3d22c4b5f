import BuildMatrix.Constraint.Evaluation

/-!
# Edits

Sets of versions are built up and narrowed down by edits: members come and go one by one, lists of
texts are collected or added, and clauses and constraints select from what is there. An edit whose
text cannot be read, or whose constraint selects nothing, leaves the set as it was.
-/

namespace BuildMatrix

/-- A change to a set of versions. -/
inductive Edit where
  /-- Put a version in. -/
  | insert (version : Version)
  /-- Take a version out. -/
  | erase (version : Version)
  /-- Take the listed versions in place of the members. -/
  | collect (texts : List String)
  /-- Add the listed versions. -/
  | add (texts : List String)
  /-- Keep what satisfies a clause. -/
  | keep (clause : String)
  /-- Keep what a constraint without shorthands selects. -/
  | evaluate (constraint : String)
  /-- Keep what a constraint selects. -/
  | resolve (constraint : String)
deriving DecidableEq

/-- Causes for which an edit changes nothing. -/
inductive EditError where
  /-- A text is no version. -/
  | version (cause : VersionError)
  /-- A constraint cannot be read or selects nothing. -/
  | constraint (cause : ConstraintError)
deriving DecidableEq

namespace Edit

/-- The set after an edit, or why there is none. -/
def attempt (versions : VersionSet) : Edit → Except EditError VersionSet
  | insert version => .ok (versions.insert version)
  | erase version => .ok (versions.erase version)
  | collect texts => (VersionSet.parse texts).mapError .version
  | add texts => ((VersionSet.parse texts).map versions.union).mapError .version
  | keep clause =>
    ((Clause.parse clause).map fun read => versions.filter read.holds).mapError .constraint
  | evaluate constraint => (Constraint.evaluate constraint versions).mapError .constraint
  | resolve constraint => (Constraint.resolve constraint versions).mapError .constraint

/-- The set after an edit; a failed one leaves it alone. -/
def apply (versions : VersionSet) (edit : Edit) : VersionSet :=
  match edit.attempt versions with
  | .ok after => after
  | .error _ => versions

/-- What inserting or erasing one version reports: that the set was changed by it. -/
def changed? (versions : VersionSet) : Edit → Option Bool
  | insert version => some !versions.contains version
  | erase version => some (versions.contains version)
  | _ => none

/-- The set after a run of edits. -/
def run (versions : VersionSet) (edits : List Edit) : VersionSet :=
  edits.foldl apply versions

/-- Inserting and erasing report a change exactly when they make one. -/
theorem changed?_iff {versions : VersionSet} {edit : Edit} {changed : Bool}
    (report : edit.changed? versions = some changed) :
    changed = true ↔ edit.apply versions ≠ versions := by
  cases edit with
  | insert version =>
    simp only [changed?, Option.some.injEq] at report
    subst report
    simp only [Bool.not_eq_true', ← Bool.not_eq_true, VersionSet.contains_iff, apply, attempt]
    constructor
    · intro absent same
      exact absent (same ▸ VersionSet.mem_insert.2 (Or.inl rfl))
    · intro different present
      refine different (VersionSet.ext fun other => ?_)
      rw [VersionSet.mem_insert]
      grind
  | erase version =>
    simp only [changed?, Option.some.injEq] at report
    subst report
    simp only [VersionSet.contains_iff, apply, attempt]
    constructor
    · intro present same
      exact (VersionSet.mem_erase.1 (same ▸ present)).2 rfl
    · intro different
      by_cases present : version ∈ versions
      · exact present
      · refine absurd (VersionSet.ext fun other => ?_) different
        rw [VersionSet.mem_erase]
        grind
  | _ => simp [changed?] at report

end Edit

end BuildMatrix
