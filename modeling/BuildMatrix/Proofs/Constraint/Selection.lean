import BuildMatrix.Constraint.Evaluation
import BuildMatrix.Proofs.Version.Collection

/-!
# What a selection answers

A constraint that is not malformed answers with the candidates that a condition admits, or with a
failure when it admits none of them. What it answers is settled by the candidates and the condition,
so two constraints that admit the same candidates select alike.
-/

namespace BuildMatrix.Constraint

/-- The answer is the set of the admitted candidates, or the failure with the text shown when there
are none. -/
def Selects (candidates : VersionSet) (admits : Version → Prop) (shown : String)
    (answer : Except ConstraintError VersionSet) : Prop :=
  ∃ selected : VersionSet,
    (∀ version, version ∈ selected ↔ version ∈ candidates ∧ admits version) ∧
    answer = if selected.isEmpty then .error (.noMatch shown) else .ok selected

/-- The answer is a failure about the constraint alone. -/
def Malformed (answer : Except ConstraintError VersionSet) : Prop :=
  ∃ failure, answer = .error failure ∧ failure.isMalformed = true

/-- Both answers are the same set, or both fail for want of a match, whatever text they show. -/
structure SelectsAlike (left right : Except ConstraintError VersionSet) : Prop where
  /-- One answer is a set exactly when the other one is this set. -/
  selected : ∀ selected, left = .ok selected ↔ right = .ok selected
  /-- One answer is a failure for want of a match exactly when the other one is. -/
  unmatched : (∃ shown, left = .error (.noMatch shown)) ↔ ∃ shown, right = .error (.noMatch shown)

namespace Selects

variable {candidates : VersionSet} {admits : Version → Prop} {shown : String}
  {answer : Except ConstraintError VersionSet}

/-- The answer is a set when something is admitted, and then it is what is admitted. -/
theorem eq_ok_iff (selects : Selects candidates admits shown answer) {selected : VersionSet} :
    answer = .ok selected ↔
      (∃ version, version ∈ selected) ∧
        ∀ version, version ∈ selected ↔ version ∈ candidates ∧ admits version := by
  obtain ⟨admitted, members, answered⟩ := selects
  rw [answered]
  constructor
  · intro published
    split at published
    · exact nomatch published
    · next inhabited =>
      obtain rfl : admitted = selected := Except.ok.inj published
      refine ⟨?_, members⟩
      by_contra none
      exact inhabited (VersionSet.isEmpty_iff.2 (not_exists.1 none))
  · rintro ⟨⟨version, member⟩, same⟩
    obtain rfl : admitted = selected :=
      VersionSet.ext fun version => (members version).trans (same version).symm
    have inhabited : ¬ admitted.isEmpty = true := fun empty =>
      VersionSet.isEmpty_iff.1 empty version member
    exact if_neg inhabited

/-- The only failure is for want of a match, when nothing is admitted. -/
theorem eq_error_iff (selects : Selects candidates admits shown answer)
    {failure : ConstraintError} :
    answer = .error failure ↔
      failure = .noMatch shown ∧ ∀ version ∈ candidates, ¬ admits version := by
  obtain ⟨admitted, members, answered⟩ := selects
  have none : admitted.isEmpty = true ↔ ∀ version ∈ candidates, ¬ admits version := by
    simp only [VersionSet.isEmpty_iff, members, not_and]
  rw [answered, ← none]
  by_cases empty : admitted.isEmpty = true <;> simp [empty, eq_comm]

/-- Something admitted is selected, with all else that is admitted. -/
theorem exists_of_admitted (selects : Selects candidates admits shown answer)
    (some : ∃ version ∈ candidates, admits version) :
    ∃ selected, answer = .ok selected ∧
      ∀ version, version ∈ selected ↔ version ∈ candidates ∧ admits version := by
  obtain ⟨version, candidate, admitted⟩ := some
  obtain ⟨selected, members, answered⟩ := selects
  have member : version ∈ selected := (members version).2 ⟨candidate, admitted⟩
  have inhabited : ¬ selected.isEmpty = true := fun empty =>
    VersionSet.isEmpty_iff.1 empty version member
  exact ⟨selected, answered.trans (if_neg inhabited), members⟩

/-- Answers that admit the same of their candidates are alike. -/
theorem alike {others : VersionSet} {allows : Version → Prop} {text : String}
    {other : Except ConstraintError VersionSet}
    (selects : Selects candidates admits shown answer) (again : Selects others allows text other)
    (same : ∀ version, version ∈ candidates ∧ admits version ↔ version ∈ others ∧ allows version) :
    SelectsAlike answer other where
  selected selected := by
    rw [selects.eq_ok_iff, again.eq_ok_iff]
    simp only [same]
  unmatched := by
    have nothing : (∀ version ∈ candidates, ¬ admits version) ↔
        ∀ version ∈ others, ¬ allows version := by
      simp only [← not_and, same]
    simp only [selects.eq_error_iff, again.eq_error_iff, nothing, ConstraintError.noMatch.injEq,
      exists_eq_left]

end Selects

end BuildMatrix.Constraint
