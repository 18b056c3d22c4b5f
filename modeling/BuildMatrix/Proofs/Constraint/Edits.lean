import BuildMatrix.Constraint.Edit
import BuildMatrix.Proofs.Constraint.Conjunction
import BuildMatrix.Proofs.Version.Members

/-!
# Runs of edits

What an edit makes of a mathematical set is said by the grammars of versions, clauses and constraints
and by what these accept, without lists and their order. An edit of a set of versions makes of its
members what it makes of the mathematical set, and fails exactly when it leaves that alone for want of
a reading or a selection. By induction this holds of whole runs, so that after any run of edits a set
of versions answers as the mathematical set that the same edits make of the empty one.
-/

namespace BuildMatrix.Edit

open Traversal (Decided)

/-! ## Edits of mathematical sets -/

/-- What an edit that succeeds makes of a mathematical set. -/
def outcome (members : Set Version) : Edit → Set Version
  | insert version => {version} ∪ members
  | erase version => members \ {version}
  | collect texts => {version | VersionSet.Named texts version}
  | add texts => members ∪ {version | VersionSet.Named texts version}
  | keep clause => {version ∈ members | Constraint.PieceAccepts (Text.trim clause.toList) version}
  | evaluate constraint => {version ∈ members | Constraint.Satisfies constraint version}
  | resolve expression => {version ∈ members | Constraint.Admits expression version}

/-- An edit succeeds when what it is given can be read, and a constraint only when it also selects
something. -/
def Succeeds (members : Set Version) : Edit → Prop
  | insert _ => True
  | erase _ => True
  | collect texts => VersionSet.Readable texts
  | add texts => VersionSet.Readable texts
  | keep clause => Constraint.IsClause (Text.trim clause.toList)
  | evaluate constraint =>
    Constraint.Canonical constraint ∧ ∃ version ∈ members, Constraint.Satisfies constraint version
  | resolve expression =>
    Constraint.WellFormed expression ∧ ∃ version ∈ members, Constraint.Admits expression version

open Classical in
/-- What becomes of a mathematical set by an edit; one that does not succeed leaves it alone. -/
noncomputable def effect (members : Set Version) (edit : Edit) : Set Version :=
  if edit.Succeeds members then edit.outcome members else members

/-- The mathematical set that a run of edits makes of the empty one. -/
noncomputable def history (edits : List Edit) : Set Version :=
  edits.foldl effect ∅

/-! ## One edit -/

/-- A clause is read when what trimming leaves of its text spells one. -/
theorem parse_clause_decided (text : String) :
    Decided (Clause.parse text) (Constraint.IsClause (Text.trim text.toList)) fun clause =>
      clause.Spelled (Text.trim text.toList) := by
  cases parsed : Clause.parse text with
  | ok clause =>
    have spelled := Clause.ofChars_eq_ok_iff.1 parsed
    exact .inl ⟨⟨clause, spelled⟩, clause, rfl, spelled⟩
  | error failure =>
    refine .inr ⟨?_, failure, rfl⟩
    rintro ⟨clause, spelled⟩
    exact nomatch parsed.symm.trans (Clause.ofChars_eq_ok_iff.2 spelled)

/-- A constraint that selects what it admits while it can be read, and fails otherwise, succeeds when
it can be read and admits a member. -/
theorem selection_decided {versions : VersionSet} {readable : Prop} {admits : Version → Prop}
    {shown : String} {answer : Except ConstraintError VersionSet}
    (selects : readable → Constraint.Selects versions admits shown answer)
    (fails : ¬ readable → ∃ failure, answer = .error failure) :
    Decided answer (readable ∧ ∃ version ∈ versions.members, admits version) fun after =>
      after.members = {version ∈ versions.members | admits version} := by
  by_cases read : readable
  · by_cases admitted : ∃ version ∈ versions, admits version
    · obtain ⟨selected, answered, same⟩ := (selects read).exists_of_admitted admitted
      exact .inl ⟨⟨read, admitted⟩, selected, answered, Set.ext same⟩
    · have none : ∀ version ∈ versions, ¬ admits version := by simpa using admitted
      have failed := (selects read).eq_error_iff.2 ⟨rfl, none⟩
      exact .inr ⟨fun both => admitted both.2, _, failed⟩
  · exact .inr ⟨fun both => read both.1, fails read⟩

/-- Evaluating succeeds when the constraint is canonical and a member satisfies it. -/
theorem evaluate_decided (versions : VersionSet) (constraint : String) :
    Decided (Constraint.evaluate constraint versions)
      (Succeeds versions.members (evaluate constraint)) fun after =>
        after.members = outcome versions.members (evaluate constraint) := by
  refine selection_decided
    (fun canonical => Constraint.evaluate_of_canonical canonical versions) fun irregular => ?_
  obtain ⟨failure, failed, -⟩ := Constraint.malformed_of_not_canonical irregular versions
  exact ⟨failure, failed⟩

/-- Resolving succeeds when the expression is well-formed and admits a member. -/
theorem resolve_decided (versions : VersionSet) (expression : String) :
    Decided (Constraint.resolve expression versions)
      (Succeeds versions.members (resolve expression)) fun after =>
        after.members = outcome versions.members (resolve expression) := by
  refine selection_decided
    (fun wellFormed => Constraint.resolve_of_wellFormed wellFormed versions) fun malformed => ?_
  exact Constraint.resolve_fails_iff.2 (.inl malformed)

/-- An attempt succeeds when the edit does on the members, and then makes of them what the edit makes
of the mathematical set. -/
theorem attempt_decided (versions : VersionSet) (edit : Edit) :
    Decided (edit.attempt versions) (edit.Succeeds versions.members) fun after =>
      after.members = edit.outcome versions.members := by
  cases edit with
  | insert version => exact .inl ⟨trivial, _, rfl, VersionSet.members_insert⟩
  | erase version => exact .inl ⟨trivial, _, rfl, VersionSet.members_erase⟩
  | collect texts =>
    apply Decided.mapError
    exact (VersionSet.parse_decided texts).imp fun _ named => Set.ext named
  | add texts =>
    apply Decided.mapError
    apply (VersionSet.parse_decided texts).map
    intro read named
    have same : read.members = {version | VersionSet.Named texts version} := Set.ext named
    rw [VersionSet.members_union, same, outcome]
  | keep clause =>
    apply Decided.mapError
    apply (parse_clause_decided clause).map
    intro read spelled
    simp only [VersionSet.members_filter, outcome, Constraint.pieceAccepts_iff spelled]
  | evaluate constraint =>
    exact (evaluate_decided versions constraint).mapError EditError.constraint
  | resolve expression =>
    exact (resolve_decided versions expression).mapError EditError.constraint

/-- An edit makes of the members what it makes of the mathematical set. -/
theorem members_apply (versions : VersionSet) (edit : Edit) :
    (edit.apply versions).members = effect versions.members edit := by
  rw [apply, effect]
  rcases attempt_decided versions edit with ⟨succeeds, after, made, same⟩ | ⟨fails, cause, failed⟩
  · rw [made, if_pos succeeds]
    exact same
  · rw [failed, if_neg fails]

/-! ## Runs -/

/-- A run makes of the members what its edits make of the mathematical set, one after another. -/
theorem members_foldl_apply (versions : VersionSet) (edits : List Edit) :
    (run versions edits).members = edits.foldl effect versions.members := by
  induction edits generalizing versions with
  | nil => rfl
  | cons edit rest ih =>
    rw [run, List.foldl_cons, List.foldl_cons, ← members_apply]
    exact ih (edit.apply versions)

/-- The members after a run from the empty set are its history. -/
theorem members_run (edits : List Edit) : (run .empty edits).members = history edits := by
  rw [members_foldl_apply, VersionSet.members_empty, history]

/-- After any run of edits from the empty set, the set answers every question as the mathematical set
that the same edits make, and the next edit succeeds or fails as it does there. Inserting reports that
the version was absent, erasing that it was present. The texts of versions are collected as the
versions are. What a list of texts is collected as does not depend on its order and its repetitions,
and a list with a text that is no version fails with the first such text. -/
theorem run_keeps_ordered_set (edits : List Edit) :
    (run .empty edits).Represents (history edits) ∧
    (∀ edit : Edit, (∃ after, edit.attempt (run .empty edits) = .ok after) ↔
      edit.Succeeds (history edits)) ∧
    (∀ version, ∃ report, (insert version).changed? (run .empty edits) = some report ∧
      (report = true ↔ version ∉ history edits)) ∧
    (∀ version, ∃ report, (erase version).changed? (run .empty edits) = some report ∧
      (report = true ↔ version ∈ history edits)) ∧
    (∀ list : List Version,
      VersionSet.parse (list.map Version.render) = .ok (VersionSet.ofList list)) ∧
    (∀ texts others : List String, (∀ text, text ∈ texts ↔ text ∈ others) →
      ∀ versions, VersionSet.parse texts = .ok versions ↔ VersionSet.parse others = .ok versions) ∧
    (∀ (texts : List String) (cause : VersionError), VersionSet.parse texts = .error cause ↔
      ∃ before text after, texts = before ++ text :: after ∧ VersionSet.Readable before ∧
        (∀ version : Version, ¬ version.Spelled (Text.trim text.toList)) ∧
        cause = .malformed (String.ofList (Text.trim text.toList))) := by
  rw [← members_run]
  refine ⟨VersionSet.represents_members _, fun edit => (attempt_decided _ edit).ok_iff,
    fun version => ⟨_, rfl, ?_⟩, fun version => ⟨_, rfl, VersionSet.contains_iff⟩,
    VersionSet.parse_render, fun texts others same versions => VersionSet.parse_congr same,
    fun texts cause => ?_⟩
  · rw [VersionSet.mem_members, ← VersionSet.contains_iff, Bool.not_eq_true, Bool.not_eq_true']
  · simp only [VersionSet.parse_eq_error_iff, Version.parse_eq_error_iff]

example : (run .empty [.collect ["3.12", "03.9", "3.12"], .resolve "^4.0", .insert ⟨2, 7⟩,
    .evaluate "==3.9"]).texts = ["3.9"] := by decide

end BuildMatrix.Edit
