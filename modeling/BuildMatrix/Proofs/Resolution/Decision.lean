import BuildMatrix.Proofs.Resolution.Declaration

/-!
# What a manifest text comes to

Against given candidates a manifest text comes to one of five outcomes: its constraint selects, its
classifiers select, the constraint's own failure stands, no classifier is a candidate, or there was
nothing to go by. Each outcome has its own conditions, stated on the declarations and the candidates
alone, and they leave out no manifest text and let no two outcomes overlap.
-/

namespace BuildMatrix

/-- The constraint that a manifest text declares. -/
inductive Manifest.Declares (content : String) : DeclaredConstraint → Prop
  /-- The project key comes first. -/
  | project {expression : String} (found : requiresPython? content = some expression) :
      Declares content ⟨expression, .requiresPython⟩
  /-- The Poetry key counts when the project key is missing. -/
  | poetry {expression : String} (missing : requiresPython? content = none)
      (found : poetryPython? content = some expression) :
      Declares content ⟨expression, .poetryDependency⟩

/-- The constraint of a manifest is the one that it declares. -/
theorem Manifest.constraint?_eq_some_iff {content : String} {declared : DeclaredConstraint} :
    constraint? content = some declared ↔ Declares content declared := by
  unfold constraint?
  constructor
  · intro found
    split at found
    · next expression project =>
      cases found
      exact .project project
    · next missing =>
      obtain ⟨expression, poetry, rfl⟩ := Option.map_eq_some_iff.1 found
      exact .poetry missing poetry
  · intro declares
    cases declares with
    | project found => simp [found]
    | poetry missing found => simp [missing, found]

/-- A manifest text declares at most one constraint. -/
theorem Manifest.Declares.unique {content : String} {left right : DeclaredConstraint}
    (first : Declares content left) (second : Declares content right) : left = right :=
  Option.some.inj
    ((constraint?_eq_some_iff.2 first).symm.trans (constraint?_eq_some_iff.2 second))

/-- A manifest has no constraint exactly when it declares none. -/
theorem Manifest.constraint?_eq_none_iff {content : String} :
    constraint? content = none ↔ ∀ declared, ¬ Declares content declared := by
  rw [Option.eq_none_iff_forall_ne_some]
  exact forall_congr' fun declared => not_congr constraint?_eq_some_iff

/-- The expression is at fault, not the choice of candidates. -/
def Constraint.ReportedMalformed (expression : String) (candidates : VersionSet) : Prop :=
  (∃ clause, resolve expression candidates = .error (.malformedClause clause)) ∨
    ∃ cause, resolve expression candidates = .error (.malformedVersion cause)

namespace Resolution

/-- What a manifest text comes to against candidates. -/
inductive ComesTo (content path : String) (candidates : VersionSet) :
    Except Failure (VersionSet × DeclaredBy) → Prop
  /-- A declared constraint that admits a candidate selects every candidate it admits. -/
  | byConstraint {declared : DeclaredConstraint} {selected : VersionSet}
      (declares : Manifest.Declares content declared)
      (wellFormed : Constraint.WellFormed declared.expression)
      (inhabited : ∃ version, version ∈ selected)
      (members : ∀ version, version ∈ selected ↔
        version ∈ candidates ∧ Constraint.Admits declared.expression version) :
      ComesTo content path candidates (.ok (selected, .constraint declared))
  /-- Where no constraint does, classifiers select the candidates they list, if there is one. -/
  | byClassifiers {selected : VersionSet}
      (unmatched : ∀ declared, Manifest.Declares content declared →
        ¬ Constraint.WellFormed declared.expression ∨
          ∀ version ∈ candidates, ¬ Constraint.Admits declared.expression version)
      (inhabited : ∃ version, version ∈ selected)
      (members : ∀ version, version ∈ selected ↔
        version ∈ Manifest.classifiers content ∧ version ∈ candidates) :
      ComesTo content path candidates (.ok (selected, .classifiers))
  /-- Where classifiers do not either, a declared constraint fails with its own failure. -/
  | constraintFails {declared : DeclaredConstraint} {cause : ConstraintError}
      (declares : Manifest.Declares content declared)
      (failed : Constraint.resolve declared.expression candidates = .error cause)
      (unlisted : ∀ version ∈ Manifest.classifiers content, version ∉ candidates) :
      ComesTo content path candidates (.error (.constraint cause))
  /-- Classifiers without a constraint fail when none of them is a candidate. -/
  | classifiersFail
      (undeclared : ∀ declared, ¬ Manifest.Declares content declared)
      (listed : Manifest.classifiers content ≠ [])
      (unlisted : ∀ version ∈ Manifest.classifiers content, version ∉ candidates) :
      ComesTo content path candidates (.error (.resolve (.noMatchingVersions .classifiers)))
  /-- A manifest text with neither has no version information. -/
  | nothingDeclared
      (undeclared : ∀ declared, ¬ Manifest.Declares content declared)
      (unlisted : Manifest.classifiers content = []) :
      ComesTo content path candidates (.error (.manifest (.noVersionInfo path)))

variable {content path : String} {candidates : VersionSet}
  {outcome : Except Failure (VersionSet × DeclaredBy)}

/-! ## Steps of a declaration -/

/-- Without a constraint, the classifiers decide. -/
theorem ofDeclaration_of_undeclared (undeclared : Manifest.constraint? content = none) :
    ofDeclaration content path candidates = byClassifiers content path candidates none := by
  rw [ofDeclaration, undeclared]

/-- With a constraint that fails, the classifiers decide, and its failure is kept for when they name
nothing. -/
theorem ofDeclaration_of_failure {declared : DeclaredConstraint} {cause : ConstraintError}
    (found : Manifest.constraint? content = some declared)
    (failed : Constraint.resolve declared.expression candidates = .error cause) :
    ofDeclaration content path candidates = byClassifiers content path candidates (some cause) := by
  simp [ofDeclaration, found, failed]

/-- The classifiers select nothing exactly when they name no candidate. -/
theorem classified_isEmpty_iff :
    (classified content candidates).isEmpty = true ↔
      ∀ version ∈ Manifest.classifiers content, version ∉ candidates := by
  simp [VersionSet.isEmpty_iff]

/-- The classifiers select something exactly when they name a candidate. -/
theorem exists_mem_classified_iff :
    (∃ version, version ∈ classified content candidates) ↔
      ∃ version ∈ Manifest.classifiers content, version ∈ candidates := by
  simp only [mem_classified]

/-- Classifiers that list no candidate leave the constraint's failure, or their own. -/
theorem byClassifiers_of_unlisted {failure? : Option ConstraintError}
    (unlisted : ∀ version ∈ Manifest.classifiers content, version ∉ candidates) :
    byClassifiers content path candidates failure? =
      match failure? with
      | some failure => .error (.constraint failure)
      | none =>
        if (Manifest.classifiers content).isEmpty then .error (.manifest (.noVersionInfo path))
        else .error (.resolve (.noMatchingVersions .classifiers)) :=
  if_pos (classified_isEmpty_iff.2 unlisted)

/-- Classifiers that list a candidate select, whatever the constraint failed with. -/
theorem byClassifiers_of_listed {failure? : Option ConstraintError}
    (listed : ∃ version ∈ Manifest.classifiers content, version ∈ candidates) :
    byClassifiers content path candidates failure? =
      .ok (classified content candidates, .classifiers) :=
  byClassifiers_eq_ok_iff.2 ⟨rfl, rfl, exists_mem_classified_iff.2 listed⟩

/-! ## Every outcome -/

/-- An outcome whose conditions hold is what the declaration comes to. -/
theorem ofDeclaration_of_comesTo (decided : ComesTo content path candidates outcome) :
    ofDeclaration content path candidates = outcome := by
  cases decided with
  | @byConstraint declared selected declares wellFormed inhabited members =>
    have found := Manifest.constraint?_eq_some_iff.2 declares
    have resolved := Constraint.resolve_eq_ok_iff.2 ⟨wellFormed, inhabited, members⟩
    exact ofDeclaration_eq_ok_iff.2 (.inl ⟨declared, found, resolved, rfl⟩)
  | @byClassifiers selected unmatched inhabited members =>
    have same : selected = classified content candidates :=
      VersionSet.ext fun version => (members version).trans mem_classified.symm
    refine ofDeclaration_eq_ok_iff.2 (.inr ⟨fun declared found => ?_, rfl, same, inhabited⟩)
    exact Constraint.resolve_fails_iff.2
      (unmatched declared (Manifest.constraint?_eq_some_iff.1 found))
  | constraintFails declares failed unlisted =>
    have found := Manifest.constraint?_eq_some_iff.2 declares
    rw [ofDeclaration_of_failure found failed, byClassifiers_of_unlisted unlisted]
  | classifiersFail undeclared listed unlisted =>
    have absent := Manifest.constraint?_eq_none_iff.2 undeclared
    rw [ofDeclaration_of_undeclared absent, byClassifiers_of_unlisted unlisted]
    exact if_neg (mt List.isEmpty_iff.1 listed)
  | nothingDeclared undeclared unlisted =>
    have absent := Manifest.constraint?_eq_none_iff.2 undeclared
    rw [ofDeclaration_of_undeclared absent, byClassifiers_of_unlisted (by simp [unlisted])]
    exact if_pos (List.isEmpty_iff.2 unlisted)

/-- The candidates that classifiers list are an outcome where no constraint admits a candidate. -/
theorem comesTo_classified
    (unmatched : ∀ declared, Manifest.Declares content declared →
      ¬ Constraint.WellFormed declared.expression ∨
        ∀ version ∈ candidates, ¬ Constraint.Admits declared.expression version)
    (listed : ∃ version ∈ Manifest.classifiers content, version ∈ candidates) :
    ComesTo content path candidates (.ok (classified content candidates, .classifiers)) :=
  .byClassifiers unmatched (exists_mem_classified_iff.2 listed) fun _ => mem_classified

/-- What a declaration comes to has the conditions of its outcome. -/
theorem comesTo_ofDeclaration :
    ComesTo content path candidates (ofDeclaration content path candidates) := by
  cases found : Manifest.constraint? content with
  | none =>
    have undeclared := Manifest.constraint?_eq_none_iff.1 found
    rw [ofDeclaration_of_undeclared found]
    by_cases listed : ∃ version ∈ Manifest.classifiers content, version ∈ candidates
    · rw [byClassifiers_of_listed listed]
      exact comesTo_classified (fun declared declares => absurd declares (undeclared declared))
        listed
    · push Not at listed
      rw [byClassifiers_of_unlisted listed]
      by_cases none : Manifest.classifiers content = []
      · rw [if_pos (List.isEmpty_iff.2 none)]
        exact .nothingDeclared undeclared none
      · rw [if_neg (mt List.isEmpty_iff.1 none)]
        exact .classifiersFail undeclared none listed
  | some declared =>
    have declares := Manifest.constraint?_eq_some_iff.1 found
    cases resolved : Constraint.resolve declared.expression candidates with
    | ok selected =>
      obtain ⟨wellFormed, inhabited, members⟩ := Constraint.resolve_eq_ok_iff.1 resolved
      have selects : ofDeclaration content path candidates = .ok (selected, .constraint declared) :=
        ofDeclaration_eq_ok_iff.2 (.inl ⟨declared, found, resolved, rfl⟩)
      rw [selects]
      exact .byConstraint declares wellFormed inhabited members
    | error cause =>
      rw [ofDeclaration_of_failure found resolved]
      by_cases listed : ∃ version ∈ Manifest.classifiers content, version ∈ candidates
      · rw [byClassifiers_of_listed listed]
        refine comesTo_classified (fun other also => ?_) listed
        rw [also.unique declares]
        exact Constraint.resolve_fails_iff.1 ⟨cause, resolved⟩
      · push Not at listed
        rw [byClassifiers_of_unlisted listed]
        exact .constraintFails declares resolved listed

/-- A declaration comes to exactly the outcome whose conditions hold. -/
theorem ofDeclaration_eq_iff :
    ofDeclaration content path candidates = outcome ↔ ComesTo content path candidates outcome :=
  ⟨fun same => same ▸ comesTo_ofDeclaration, ofDeclaration_of_comesTo⟩

/-! ## Failures -/

/-- A malformed constraint is reported exactly when there is one and no classifier stands in. -/
theorem malformedConstraint_iff :
    (∃ failure, ofDeclaration content path candidates = .error failure ∧
        failure.isMalformedConstraint = true) ↔
      ∃ declared, Manifest.Declares content declared ∧
        Constraint.ReportedMalformed declared.expression candidates ∧
          ∀ version ∈ Manifest.classifiers content, version ∉ candidates := by
  constructor
  · rintro ⟨failure, failed, malformed⟩
    cases ofDeclaration_eq_iff.1 failed with
    | @constraintFails declared cause declares reported unlisted =>
      refine ⟨declared, declares, ?_, unlisted⟩
      cases cause with
      | malformedClause clause => exact .inl ⟨clause, reported⟩
      | malformedVersion cause => exact .inr ⟨cause, reported⟩
      | noMatch constraint => exact nomatch malformed
    | classifiersFail => exact nomatch malformed
    | nothingDeclared => exact nomatch malformed
  · rintro ⟨declared, declares, ⟨clause, reported⟩ | ⟨cause, reported⟩, unlisted⟩
    · exact ⟨_, ofDeclaration_of_comesTo (.constraintFails declares reported unlisted), rfl⟩
    · exact ⟨_, ofDeclaration_of_comesTo (.constraintFails declares reported unlisted), rfl⟩

/-- The path is named when there is no version information, and has no other influence. -/
theorem ofDeclaration_path (other : String) :
    ofDeclaration content other candidates = ofDeclaration content path candidates ∨
      (ofDeclaration content path candidates = .error (.manifest (.noVersionInfo path)) ∧
        ofDeclaration content other candidates = .error (.manifest (.noVersionInfo other))) := by
  cases came : ofDeclaration content path candidates with
  | ok selection =>
    left
    cases ofDeclaration_eq_iff.1 came with
    | byConstraint declares wellFormed inhabited members =>
      exact ofDeclaration_of_comesTo (.byConstraint declares wellFormed inhabited members)
    | byClassifiers unmatched inhabited members =>
      exact ofDeclaration_of_comesTo (.byClassifiers unmatched inhabited members)
  | error failure =>
    cases ofDeclaration_eq_iff.1 came with
    | constraintFails declares failed unlisted =>
      exact .inl (ofDeclaration_of_comesTo (.constraintFails declares failed unlisted))
    | classifiersFail undeclared listed unlisted =>
      exact .inl (ofDeclaration_of_comesTo (.classifiersFail undeclared listed unlisted))
    | nothingDeclared undeclared unlisted =>
      exact .inr ⟨rfl, ofDeclaration_of_comesTo (.nothingDeclared undeclared unlisted)⟩

/-- A declaration comes to exactly one of the five outcomes. A declared constraint is in charge
exactly when it resolves, a malformed one is reported exactly when no classifier stands in, and the
path is named only where there is no version information. -/
theorem ofDeclaration_decided (content path : String) (candidates : VersionSet) :
    (∀ outcome, ofDeclaration content path candidates = outcome ↔
      ComesTo content path candidates outcome) ∧
    (∀ declared selected,
      ofDeclaration content path candidates = .ok (selected, .constraint declared) ↔
        Manifest.Declares content declared ∧
          Constraint.resolve declared.expression candidates = .ok selected) ∧
    ((∃ failure, ofDeclaration content path candidates = .error failure ∧
        failure.isMalformedConstraint = true) ↔
      ∃ declared, Manifest.Declares content declared ∧
        Constraint.ReportedMalformed declared.expression candidates ∧
          ∀ version ∈ Manifest.classifiers content, version ∉ candidates) ∧
    ∀ other,
      ofDeclaration content other candidates = ofDeclaration content path candidates ∨
        (ofDeclaration content path candidates = .error (.manifest (.noVersionInfo path)) ∧
          ofDeclaration content other candidates = .error (.manifest (.noVersionInfo other))) := by
  refine ⟨fun outcome => ofDeclaration_eq_iff, fun declared selected => ?_,
    malformedConstraint_iff, ofDeclaration_path⟩
  simp [ofDeclaration_eq_ok_iff, Manifest.constraint?_eq_some_iff]

example : ofDeclaration "requires-python = '>=x'\n'Programming Language :: Python :: 3.8'"
    "pyproject.toml" (VersionSet.ofList [⟨3, 9⟩]) =
      .error (.constraint (.malformedClause ">=x")) := by decide

end Resolution

end BuildMatrix
