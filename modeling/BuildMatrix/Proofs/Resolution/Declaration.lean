import BuildMatrix.Proofs.Constraint.Meaning
import BuildMatrix.Resolution.Declaration

/-!
# What a declaration selects

A declaration selects by its constraint when that resolves, and else by its classifiers when one of
them is a candidate. Either way what is selected is not empty, and the failures of a declaration are
about its manifest, its constraint or its classifiers.
-/

namespace BuildMatrix

/-- The failure is about a manifest text, its constraint or the versions it lists. -/
def Failure.OfDeclaration : Failure → Prop
  | .manifest (.noVersionInfo _) => True
  | .manifest (.notFound _) => False
  | .manifest (.unreadable _ _) => False
  | .constraint _ => True
  | .resolve _ => True
  | .config _ => False
  | .version _ => False

namespace Resolution

variable {content path : String} {candidates selected : VersionSet} {declaredBy : DeclaredBy}

/-- The candidates that the classifiers list. -/
@[simp]
theorem mem_classified {version : Version} :
    version ∈ classified content candidates ↔
      version ∈ Manifest.classifiers content ∧ version ∈ candidates := by
  simp [classified]

/-- Classifiers select the candidates among them, unless there is none. -/
theorem byClassifiers_eq_ok_iff {failure? : Option ConstraintError} :
    byClassifiers content path candidates failure? = .ok (selected, declaredBy) ↔
      declaredBy = .classifiers ∧ selected = classified content candidates ∧
        ∃ version, version ∈ selected := by
  unfold byClassifiers
  by_cases empty : (classified content candidates).isEmpty = true
  · rw [if_pos empty]
    constructor
    · intro published
      split at published
      · exact nomatch published
      · split at published <;> exact nomatch published
    · rintro ⟨-, rfl, version, member⟩
      exact absurd member (VersionSet.isEmpty_iff.1 empty version)
  · rw [if_neg empty]
    simp only [Except.ok.injEq, Prod.mk.injEq]
    constructor
    · rintro ⟨rfl, rfl⟩
      refine ⟨rfl, rfl, ?_⟩
      by_contra none
      exact empty (VersionSet.isEmpty_iff.2 (not_exists.1 none))
    · rintro ⟨rfl, rfl, -⟩
      exact ⟨rfl, rfl⟩

/-- Selecting by classifiers fails only as a declaration may. -/
theorem byClassifiers_error {failure? : Option ConstraintError} {failure : Failure}
    (failed : byClassifiers content path candidates failure? = .error failure) :
    failure.OfDeclaration := by
  unfold byClassifiers at failed
  dsimp only at failed
  split at failed
  · split at failed
    · cases failed
      trivial
    · split at failed <;> cases failed <;> trivial
  · exact nomatch failed

/-- A declaration selects by its constraint when that resolves, and else by its classifiers. -/
theorem ofDeclaration_eq_ok_iff :
    ofDeclaration content path candidates = .ok (selected, declaredBy) ↔
      (∃ declared, Manifest.constraint? content = some declared ∧
        Constraint.resolve declared.expression candidates = .ok selected ∧
          declaredBy = .constraint declared) ∨
      ((∀ declared, Manifest.constraint? content = some declared →
        ∃ failure, Constraint.resolve declared.expression candidates = .error failure) ∧
          declaredBy = .classifiers ∧ selected = classified content candidates ∧
            ∃ version, version ∈ selected) := by
  unfold ofDeclaration
  cases Manifest.constraint? content with
  | none => simp [byClassifiers_eq_ok_iff]
  | some declared =>
    cases resolved : Constraint.resolve declared.expression candidates with
    | ok chosen => simp [resolved, eq_comm]
    | error failure => simp [resolved, byClassifiers_eq_ok_iff]

/-- Selecting by a declaration fails only as a declaration may. -/
theorem ofDeclaration_error {failure : Failure}
    (failed : ofDeclaration content path candidates = .error failure) :
    failure.OfDeclaration := by
  unfold ofDeclaration at failed
  split at failed
  · exact byClassifiers_error failed
  · split at failed
    · exact nomatch failed
    · exact byClassifiers_error failed

/-- What a declaration selects is some of the candidates. -/
theorem ofDeclaration_selects
    (resolved : ofDeclaration content path candidates = .ok (selected, declaredBy)) :
    (∃ version, version ∈ selected) ∧ ∀ version ∈ selected, version ∈ candidates := by
  rcases ofDeclaration_eq_ok_iff.1 resolved with
    ⟨declared, -, chosen, -⟩ | ⟨-, -, rfl, inhabited⟩
  · obtain ⟨-, inhabited, members⟩ := Constraint.resolve_eq_ok_iff.1 chosen
    exact ⟨inhabited, fun version member => ((members version).1 member).1⟩
  · exact ⟨inhabited, fun version member => (mem_classified.1 member).2⟩

end Resolution

end BuildMatrix
