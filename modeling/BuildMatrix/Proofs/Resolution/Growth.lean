import BuildMatrix.Proofs.Resolution.Decision

/-!
# More candidates

A manifest text that resolves goes on to resolve when candidates are added, and what it selected
before is what it selects now among the candidates of before. Only the declaration in charge may
change, and only from the classifiers to a constraint that none of the earlier candidates satisfied.
-/

namespace BuildMatrix

namespace Resolution

/-- The text declares this constraint, and it admits a candidate. -/
def Matched (content : String) (candidates : VersionSet) (declared : DeclaredConstraint) : Prop :=
  Manifest.Declares content declared ∧ Constraint.WellFormed declared.expression ∧
    ∃ version ∈ candidates, Constraint.Admits declared.expression version

/-- The declared constraint is well-formed, admits none of the candidates and admits one of a wider
choice. -/
def Gained (content : String) (candidates wider : VersionSet) : Prop :=
  ∃ declared, Manifest.Declares content declared ∧ Constraint.WellFormed declared.expression ∧
    (∀ version ∈ candidates, ¬ Constraint.Admits declared.expression version) ∧
    ∃ version ∈ wider, Constraint.Admits declared.expression version

variable {content : String} {candidates wider selected more : VersionSet}
  {declared : DeclaredConstraint}

/-! ## The declaration in charge -/

/-- A constraint that admits a candidate is in charge. -/
theorem ofDeclaration_of_matched (path : String) (matched : Matched content candidates declared) :
    ∃ selected, ofDeclaration content path candidates = .ok (selected, .constraint declared) ∧
      ∀ version, version ∈ selected ↔
        version ∈ candidates ∧ Constraint.Admits declared.expression version := by
  obtain ⟨declares, wellFormed, version, member, admitted⟩ := matched
  obtain ⟨selected, members, -⟩ := Constraint.resolve_of_wellFormed wellFormed candidates
  have inhabited : ∃ version, version ∈ selected :=
    ⟨version, (members version).2 ⟨member, admitted⟩⟩
  have decided : ComesTo content path candidates (.ok (selected, .constraint declared)) :=
    .byConstraint declares wellFormed inhabited members
  exact ⟨selected, ofDeclaration_of_comesTo decided, members⟩

/-- Without such a constraint, classifiers that list a candidate are in charge. -/
theorem ofDeclaration_of_unmatched (path : String)
    (unmatched : ∀ declared, ¬ Matched content candidates declared)
    (listed : ∃ version ∈ Manifest.classifiers content, version ∈ candidates) :
    ofDeclaration content path candidates = .ok (classified content candidates, .classifiers) := by
  refine ofDeclaration_of_comesTo (comesTo_classified (fun declared declares => ?_) listed)
  by_contra admitting
  push Not at admitting
  exact unmatched declared ⟨declares, admitting⟩

/-! ## Adding candidates -/

/-- A constraint that admits a candidate admits one of a wider choice. -/
theorem Matched.grow (matched : Matched content candidates declared)
    (grown : ∀ version ∈ candidates, version ∈ wider) : Matched content wider declared := by
  obtain ⟨declares, wellFormed, version, member, admitted⟩ := matched
  exact ⟨declares, wellFormed, version, grown version member, admitted⟩

/-- A constraint that admits a candidate has nothing to gain. -/
theorem Matched.not_gained (matched : Matched content candidates declared) :
    ¬ Gained content candidates wider := by
  rintro ⟨other, also, -, none, -⟩
  obtain ⟨declares, -, version, member, admitted⟩ := matched
  rw [also.unique declares] at none
  exact none version member admitted

/-- One test on a choice and on a wider one picks from the wider one what it picks from the other,
and only new candidates beside it. -/
theorem mem_iff_of_grown {passes : Version → Prop}
    (grown : ∀ version ∈ candidates, version ∈ wider)
    (before : ∀ version, version ∈ selected ↔ version ∈ candidates ∧ passes version)
    (after : ∀ version, version ∈ more ↔ version ∈ wider ∧ passes version) (version : Version) :
    version ∈ selected ↔ version ∈ more ∧ version ∈ candidates := by
  rw [before, after]
  constructor
  · rintro ⟨member, passed⟩
    exact ⟨⟨grown version member, passed⟩, member⟩
  · rintro ⟨⟨-, passed⟩, member⟩
    exact ⟨member, passed⟩

/-- A manifest text that resolves still resolves when candidates are added. What it selected is what
it selects now of the earlier candidates, unless the classifiers gave way to the constraint; that
happens exactly when the constraint is well-formed, admitted none of the earlier candidates and
admits one now. -/
theorem ofDeclaration_survives_growth (content path : String) (candidates wider : VersionSet)
    (selected : VersionSet) (declaredBy : DeclaredBy)
    (grown : ∀ version ∈ candidates, version ∈ wider)
    (resolved : ofDeclaration content path candidates = .ok (selected, declaredBy)) :
    ∃ more later, ofDeclaration content path wider = .ok (more, later) ∧
      (∀ declared, declaredBy = .constraint declared → later = declaredBy) ∧
      (later = declaredBy →
        ∀ version, version ∈ selected ↔ version ∈ more ∧ version ∈ candidates) ∧
      (later ≠ declaredBy → declaredBy = .classifiers ∧
        ∃ declared, Manifest.Declares content declared ∧ later = .constraint declared) ∧
      (later ≠ declaredBy ↔ Gained content candidates wider) := by
  cases ofDeclaration_eq_iff.1 resolved with
  | @byConstraint declared _ declares wellFormed inhabited members =>
    obtain ⟨version, member⟩ := inhabited
    have matched : Matched content candidates declared :=
      ⟨declares, wellFormed, version, (members version).1 member⟩
    obtain ⟨more, after, moreMembers⟩ := ofDeclaration_of_matched path (matched.grow grown)
    have steady : ¬ Gained content candidates wider := matched.not_gained
    exact ⟨more, _, after, fun _ _ => rfl, fun _ => mem_iff_of_grown grown members moreMembers,
      fun changed => absurd rfl changed, fun changed => absurd rfl changed,
      fun gained => absurd gained steady⟩
  | byClassifiers unmatched inhabited members =>
    -- The classifiers stay in charge unless the constraint admits one of the added candidates.
    by_cases matched : ∃ declared, Matched content wider declared
    · obtain ⟨declared, matched⟩ := matched
      obtain ⟨more, after, -⟩ := ofDeclaration_of_matched path matched
      obtain ⟨declares, wellFormed, admits⟩ := matched
      have none : ∀ version ∈ candidates, ¬ Constraint.Admits declared.expression version :=
        (unmatched declared declares).resolve_left (not_not_intro wellFormed)
      have gained : Gained content candidates wider :=
        ⟨declared, declares, wellFormed, none, admits⟩
      exact ⟨more, _, after, nofun, nofun, fun _ => ⟨rfl, declared, declares, rfl⟩,
        fun _ => gained, fun _ => nofun⟩
    · have listed : ∃ version ∈ Manifest.classifiers content, version ∈ wider := by
        obtain ⟨version, member⟩ := inhabited
        obtain ⟨lists, candidate⟩ := (members version).1 member
        exact ⟨version, lists, grown version candidate⟩
      have after : ofDeclaration content path wider =
          .ok (classified content wider, .classifiers) :=
        ofDeclaration_of_unmatched path (not_exists.1 matched) listed
      have before : ∀ version, version ∈ selected ↔
          version ∈ candidates ∧ version ∈ Manifest.classifiers content :=
        fun version => (members version).trans and_comm
      have now : ∀ version, version ∈ classified content wider ↔
          version ∈ wider ∧ version ∈ Manifest.classifiers content :=
        fun _ => mem_classified.trans and_comm
      have steady : ¬ Gained content candidates wider := by
        rintro ⟨declared, declares, wellFormed, -, admits⟩
        exact matched ⟨declared, declares, wellFormed, admits⟩
      exact ⟨_, _, after, nofun, fun _ => mem_iff_of_grown grown before now,
        fun changed => absurd rfl changed, fun changed => absurd rfl changed,
        fun gained => absurd gained steady⟩

/-- A constraint that an old release does not satisfy, and the classifier of that release. -/
def aheadOfItsTime : String :=
  "requires-python = '>=3.13'\n'Programming Language :: Python :: 3.9'"

/-- The classifier is in charge until there is a candidate that the constraint admits. -/
theorem ofDeclaration_survives_growth_of_new_release :
    (∀ version ∈ VersionSet.ofList [⟨3, 9⟩], version ∈ VersionSet.ofList [⟨3, 9⟩, ⟨3, 13⟩]) ∧
    ofDeclaration aheadOfItsTime "pyproject.toml" (VersionSet.ofList [⟨3, 9⟩]) =
      .ok (VersionSet.ofList [⟨3, 9⟩], .classifiers) ∧
    ofDeclaration aheadOfItsTime "pyproject.toml" (VersionSet.ofList [⟨3, 9⟩, ⟨3, 13⟩]) =
      .ok (VersionSet.ofList [⟨3, 13⟩], .constraint ⟨">=3.13", .requiresPython⟩) ∧
    Gained aheadOfItsTime (VersionSet.ofList [⟨3, 9⟩]) (VersionSet.ofList [⟨3, 9⟩, ⟨3, 13⟩]) := by
  have grown : ∀ version ∈ VersionSet.ofList [⟨3, 9⟩],
      version ∈ VersionSet.ofList [⟨3, 9⟩, ⟨3, 13⟩] := by
    decide
  have before : ofDeclaration aheadOfItsTime "pyproject.toml" (VersionSet.ofList [⟨3, 9⟩]) =
      .ok (VersionSet.ofList [⟨3, 9⟩], .classifiers) := by
    decide
  have now : ofDeclaration aheadOfItsTime "pyproject.toml"
      (VersionSet.ofList [⟨3, 9⟩, ⟨3, 13⟩]) =
        .ok (VersionSet.ofList [⟨3, 13⟩], .constraint ⟨">=3.13", .requiresPython⟩) := by
    decide
  obtain ⟨more, later, after, -, -, -, changed⟩ :=
    ofDeclaration_survives_growth _ _ _ _ _ _ grown before
  rw [now] at after
  cases after
  exact ⟨grown, before, now, changed.1 nofun⟩

end Resolution

end BuildMatrix
