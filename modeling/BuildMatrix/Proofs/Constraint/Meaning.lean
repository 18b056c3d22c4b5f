import BuildMatrix.Proofs.Constraint.Reading
import BuildMatrix.Proofs.Constraint.Selection

/-!
# The meaning of constraints

An expression is well-formed when it has a token and every token is in the grammar. A well-formed
expression selects exactly the candidates that every token accepts, and fails only when there is no
such candidate. Any other expression is malformed whatever the candidates, and the failure is about
its first token outside the grammar.
-/

namespace BuildMatrix.Constraint

/-! ## Evaluation -/

section
variable {text : String} {clauses : List Clause} {failure : ConstraintError}

/-- A piece that is no clause fails an evaluation before any candidate is looked at. -/
theorem evaluate_of_error (candidates : VersionSet)
    (failed : (pieces text.toList).mapM Clause.ofChars = .error failure) :
    evaluate text candidates = .error failure := by
  simp [evaluate, failed]

/-- A text without pieces is malformed as a whole. -/
theorem evaluate_of_nil (candidates : VersionSet)
    (read : (pieces text.toList).mapM Clause.ofChars = .ok []) :
    evaluate text candidates = .error (.malformedClause text) := by
  simp [evaluate, read]

/-- Clauses that were read select the candidates that satisfy them all, unless there are none. -/
theorem evaluate_of_clauses (candidates : VersionSet)
    (read : (pieces text.toList).mapM Clause.ofChars = .ok clauses) (some : clauses ≠ []) :
    evaluate text candidates =
      if (satisfying clauses candidates).isEmpty then .error (.noMatch text)
      else .ok (satisfying clauses candidates) := by
  have narrowed {selected : VersionSet} :=
    @narrow_eq_some_iff clauses candidates selected fun none => absurd none some
  cases left : narrow clauses candidates with
  | some selected =>
    obtain ⟨rfl, inhabited⟩ := narrowed.1 left
    simp [evaluate, read, left, inhabited]
  | none =>
    have empty : (satisfying clauses candidates).isEmpty = true := by
      by_contra inhabited
      have found := narrowed.2 ⟨rfl, by simpa using inhabited⟩
      exact nomatch left.symm.trans found
    simp [evaluate, read, left, empty]

end

/-! ## Admission -/

/-- The token spells something that accepts the version. -/
def TokenAccepts (token : List Char) (version : Version) : Prop :=
  ∃ shorthand, Shorthand.Spelled token shorthand ∧ shorthand.Accepts version

/-- Every token of the expression accepts the version. -/
def Admits (expression : String) (version : Version) : Prop :=
  ∀ token ∈ tokens expression.toList, TokenAccepts token version

/-- The expression has a token, and all its tokens are in the grammar. -/
def WellFormed (expression : String) : Prop :=
  tokens expression.toList ≠ [] ∧ ∀ token ∈ tokens expression.toList, IsToken token

/-- The clauses of tokens of the grammar accept what all the tokens do. -/
theorem readTokens {list : List (List Char)} (plain : ∀ token ∈ list, ',' ∉ token)
    (grammatical : ∀ token ∈ list, IsToken token) :
    ∃ groups, list.mapM readToken = .ok groups ∧ (list ≠ [] → groups.flatten ≠ []) ∧
      ∀ version, (∀ clause ∈ groups.flatten, clause.holds version = true) ↔
        ∀ token ∈ list, TokenAccepts token version := by
  have known : ∀ token ∈ list, ∃ clauses, readToken token = .ok clauses ∧ clauses ≠ [] ∧
      ∀ version, (∀ clause ∈ clauses, clause.holds version = true) ↔ TokenAccepts token version := by
    intro token member
    obtain ⟨shorthand, spelled, fits⟩ := grammatical token member
    obtain ⟨clauses, read, some, accepts⟩ := readToken_of_spelled (plain token member) spelled fits
    refine ⟨clauses, read, some, fun version => ?_⟩
    rw [accepts]
    constructor
    · intro accepted
      exact ⟨shorthand, spelled, accepted⟩
    · rintro ⟨other, same, accepted⟩
      exact same.unique spelled ▸ accepted
  obtain ⟨groups, related⟩ := Traversal.exists_forall₂_iff.2 known
  have read : list.mapM readToken = .ok groups :=
    Traversal.mapM_eq_ok_iff.2 (related.imp fun _ _ => And.left)
  refine ⟨groups, read, ?_, fun version => ?_⟩
  · intro some
    cases related with
    | nil => exact absurd rfl some
    | cons head tail => simp [head.2.1]
  · rw [List.forall_mem_flatten]
    exact Traversal.forall_mem_iff_of_forall₂ related fun _ _ known => known.2.2 version

/-- A well-formed expression selects the candidates it admits, unless it admits none. -/
theorem resolve_of_wellFormed {expression : String} (wellFormed : WellFormed expression)
    (candidates : VersionSet) :
    Selects candidates (Admits expression) (normalize expression)
      (resolve expression candidates) := by
  obtain ⟨groups, read, some, accept⟩ :=
    readTokens (fun token member => (mem_tokens member).2.1) wellFormed.2
  have clauses : (pieces (normalize expression).toList).mapM Clause.ofChars =
      .ok groups.flatten := by
    rw [mapM_pieces_normalize, read]
    rfl
  refine ⟨satisfying groups.flatten candidates, fun version => ?_,
    evaluate_of_clauses candidates clauses (some wellFormed.1)⟩
  rw [mem_satisfying, accept]
  rfl

/-- A well-formed expression selects exactly the candidates that all its tokens accept, and fails
for want of a match exactly when they accept none. -/
theorem resolve_selects_admitted (expression : String) (candidates : VersionSet)
    (wellFormed : WellFormed expression) :
    ((∃ version ∈ candidates, Admits expression version) →
      ∃ selected, resolve expression candidates = .ok selected ∧
        ∀ version, version ∈ selected ↔ version ∈ candidates ∧ Admits expression version) ∧
    ((∀ version ∈ candidates, ¬ Admits expression version) →
      resolve expression candidates = .error (.noMatch (normalize expression))) := by
  obtain ⟨selected, members, resolved⟩ := resolve_of_wellFormed wellFormed candidates
  constructor
  · rintro ⟨version, candidate, admitted⟩
    have inhabited : ¬ selected.isEmpty = true := fun empty =>
      VersionSet.isEmpty_iff.1 empty version ((members version).2 ⟨candidate, admitted⟩)
    exact ⟨selected, resolved.trans (if_neg inhabited), members⟩
  · intro none
    have empty : selected.isEmpty = true := VersionSet.isEmpty_iff.2 fun version member =>
      none version ((members version).1 member).1 ((members version).1 member).2
    exact resolved.trans (if_pos empty)

/-- White space, a leading zero, a patch in digits of another script and an empty token leave an
expression well-formed. -/
theorem resolve_selects_admitted_of_three_tokens :
    ∃ selected, resolve " >= 3.09.٣,, ^3.8 ,!=3.11" (VersionSet.ofList [⟨3, 8⟩, ⟨3, 9⟩, ⟨3, 11⟩]) =
      .ok selected ∧ ∀ version, version ∈ selected ↔
        version ∈ VersionSet.ofList [⟨3, 8⟩, ⟨3, 9⟩, ⟨3, 11⟩] ∧
          Admits " >= 3.09.٣,, ^3.8 ,!=3.11" version := by
  have shape : tokens " >= 3.09.٣,, ^3.8 ,!=3.11".toList =
      [">=3.09.٣".toList, "^3.8".toList, "!=3.11".toList] := by decide
  have patched : Release.Spelled "3.09.٣".toList ⟨⟨3, 9⟩, some ['٣']⟩ :=
    Release.ofChars?_eq_some_iff.1 (by decide)
  have first : Shorthand.Spelled ">=3.09.٣".toList (.comparison .greaterOrEqual ⟨3, 9⟩) :=
    .comparison .greaterOrEqual patched
  have plain : Release.Spelled "3.8".toList ⟨⟨3, 8⟩, none⟩ :=
    Release.ofChars?_eq_some_iff.1 (by decide)
  have second : Shorthand.Spelled "^3.8".toList (.caret ⟨3, 8⟩) := .caret plain
  have excluded : Release.Spelled "3.11".toList ⟨⟨3, 11⟩, none⟩ :=
    Release.ofChars?_eq_some_iff.1 (by decide)
  have third : Shorthand.Spelled "!=3.11".toList (.comparison .notEqual ⟨3, 11⟩) :=
    .comparison .notEqual excluded
  have wellFormed : WellFormed " >= 3.09.٣,, ^3.8 ,!=3.11" := by
    rw [WellFormed, shape]
    simp only [List.forall_mem_cons]
    exact ⟨by simp, ⟨_, first, trivial⟩, ⟨_, second, by decide⟩, ⟨_, third, trivial⟩, by simp⟩
  refine (resolve_selects_admitted _ _ wellFormed).1 ⟨⟨3, 9⟩, by decide, ?_⟩
  rw [Admits, shape]
  simp only [List.forall_mem_cons]
  exact ⟨⟨_, first, by decide⟩, ⟨_, second, by decide⟩, ⟨_, third, by decide⟩, by simp⟩

/-! ## Offenders -/

/-- Without tokens there is nothing to be selected by. -/
theorem resolve_of_blank {expression : String} (blank : tokens expression.toList = [])
    (candidates : VersionSet) :
    resolve expression candidates = .error (.malformedClause "") := by
  have text : normalize expression = "" := by
    rw [normalize, blank]
    rfl
  rw [resolve, text]
  exact evaluate_of_nil candidates rfl

/-- The first token outside the grammar fails the expression with its own diagnosis. -/
theorem resolve_of_offender {expression : String} {before after : List (List Char)}
    {token : List Char} (split : tokens expression.toList = before ++ token :: after)
    (earlier : ∀ other ∈ before, IsToken other) (outside : ¬ IsToken token) :
    ∃ failure, Diagnosed token failure ∧
      ∀ candidates, resolve expression candidates = .error failure := by
  have clean : ∀ other ∈ before ++ token :: after, ',' ∉ other ∧ Text.isSolid other = true :=
    fun other member => (mem_tokens (split ▸ member)).2
  obtain ⟨failure, diagnosed, failed⟩ :=
    readToken_of_not_isToken (clean token (by simp)).1 (clean token (by simp)).2 outside
  refine ⟨failure, diagnosed, fun candidates => evaluate_of_error candidates ?_⟩
  have first : (tokens expression.toList).mapM readToken = .error failure := by
    rw [Traversal.mapM_eq_error_iff]
    refine ⟨before, token, after, split, fun other member => ?_, failed⟩
    obtain ⟨shorthand, spelled, fits⟩ := earlier other member
    obtain ⟨clauses, read, -⟩ :=
      readToken_of_spelled (clean other (by simp [member])).1 spelled fits
    exact ⟨clauses, read⟩
  rw [mapM_pieces_normalize, first]
  rfl

/-- Behind a digit the operator is found, so the diagnosis is about the text after it. -/
theorem Diagnosed.eq_version {token rest : List Char} {failure : ConstraintError}
    {comparator : Comparator} {digit : Char} (diagnosed : Diagnosed token failure)
    (shape : token = comparator.symbol ++ digit :: rest)
    (decimal : Text.isDecimalDigit digit = true) :
    failure = .malformedVersion (.malformed (String.ofList (digit :: rest))) := by
  cases diagnosed with
  | @version other otherDigit otherRest same also =>
    have found := Comparator.split?_symbol_of_decimal comparator decimal rest
    rw [← shape, same, Comparator.split?_symbol_of_decimal other also] at found
    cases found
    rfl
  | clause shapeless => exact nomatch decimal.symm.trans (shapeless comparator digit rest shape)

/-- A token that is not an operator with a digit behind it is reported as a malformed clause. -/
theorem Diagnosed.eq_clause {token : List Char} {failure : ConstraintError}
    (diagnosed : Diagnosed token failure)
    (shapeless : ∀ (comparator : Comparator) digit rest,
      token = comparator.symbol ++ digit :: rest → Text.isDecimalDigit digit = false) :
    failure = .malformedClause (String.ofList token) := by
  cases diagnosed with
  | version comparator shape decimal =>
    exact nomatch decimal.symm.trans (shapeless comparator _ _ shape)
  | clause => rfl

/-- What a token is reported with is a malformation. -/
theorem Diagnosed.isMalformed {token : List Char} {failure : ConstraintError}
    (diagnosed : Diagnosed token failure) : failure.isMalformed = true := by
  cases diagnosed <;> rfl

/-- An expression that is not well-formed is malformed in the same way for all candidates. -/
theorem resolve_of_not_wellFormed {expression : String} (malformed : ¬ WellFormed expression) :
    ∃ failure, failure.isMalformed = true ∧
      ∀ candidates, resolve expression candidates = .error failure := by
  by_cases blank : tokens expression.toList = []
  · exact ⟨.malformedClause "", rfl, resolve_of_blank blank⟩
  · have fails : ∃ token ∈ tokens expression.toList, ¬ IsToken token := by
      by_contra none
      exact malformed ⟨blank, by simpa using none⟩
    obtain ⟨before, token, after, split, earlier, outside⟩ := Traversal.exists_first_failing fails
    obtain ⟨failure, diagnosed, failed⟩ := resolve_of_offender split earlier outside
    exact ⟨failure, diagnosed.isMalformed, failed⟩

/-- A well-formed expression is never malformed. -/
theorem isMalformed_of_wellFormed {expression : String} {candidates : VersionSet}
    {failure : ConstraintError} (wellFormed : WellFormed expression)
    (failed : resolve expression candidates = .error failure) : failure.isMalformed = false := by
  have unmatched := (resolve_of_wellFormed wellFormed candidates).eq_error_iff.1 failed
  rw [unmatched.1]
  rfl

/-- Only a well-formed expression selects, and only what it admits of the candidates, if anything. -/
theorem resolve_eq_ok_iff {expression : String} {candidates selected : VersionSet} :
    resolve expression candidates = .ok selected ↔
      WellFormed expression ∧ (∃ version, version ∈ selected) ∧
        ∀ version, version ∈ selected ↔ version ∈ candidates ∧ Admits expression version := by
  by_cases wellFormed : WellFormed expression
  · rw [(resolve_of_wellFormed wellFormed candidates).eq_ok_iff, and_iff_right wellFormed]
  · obtain ⟨failure, -, failed⟩ := resolve_of_not_wellFormed wellFormed
    simp [failed, wellFormed]

/-- An expression selects nothing when it is malformed or admits none of the candidates. -/
theorem resolve_fails_iff {expression : String} {candidates : VersionSet} :
    (∃ failure, resolve expression candidates = .error failure) ↔
      ¬ WellFormed expression ∨ ∀ version ∈ candidates, ¬ Admits expression version := by
  by_cases wellFormed : WellFormed expression
  · simp only [(resolve_of_wellFormed wellFormed candidates).eq_error_iff, exists_eq_left,
      wellFormed, not_true_eq_false, false_or]
  · obtain ⟨failure, -, failed⟩ := resolve_of_not_wellFormed wellFormed
    simp [failed, wellFormed]

/-- An expression is malformed exactly when it has no token or one outside the grammar, whatever
the candidates, and the failure is the diagnosis of the first such token. -/
theorem malformed_iff_outside_grammar (expression : String) (candidates : VersionSet) :
    (((∃ clause, resolve expression candidates = .error (.malformedClause clause)) ∨
        ∃ cause, resolve expression candidates = .error (.malformedVersion cause)) ↔
      tokens expression.toList = [] ∨ ∃ token ∈ tokens expression.toList, ¬ IsToken token) ∧
    (tokens expression.toList = [] →
      resolve expression candidates = .error (.malformedClause "")) ∧
    (∀ before token after, tokens expression.toList = before ++ token :: after →
      (∀ earlier ∈ before, IsToken earlier) → ¬ IsToken token →
        (∀ (comparator : Comparator) (digit : Char) (rest : List Char),
          token = comparator.symbol ++ digit :: rest → Text.isDecimalDigit digit = true →
            resolve expression candidates =
              .error (.malformedVersion (.malformed (String.ofList (digit :: rest))))) ∧
        ((∀ (comparator : Comparator) (digit : Char) (rest : List Char),
          token = comparator.symbol ++ digit :: rest → Text.isDecimalDigit digit = false) →
            resolve expression candidates = .error (.malformedClause (String.ofList token)))) ∧
    (∀ (others : VersionSet) (failure : ConstraintError), failure.isMalformed = true →
      resolve expression candidates = .error failure →
        resolve expression others = .error failure) := by
  refine ⟨⟨?_, ?_⟩, fun blank => resolve_of_blank blank candidates, ?_, ?_⟩
  · intro failed
    by_contra grammatical
    have wellFormed : WellFormed expression := by
      simpa [WellFormed, not_or] using grammatical
    rcases failed with ⟨clause, failed⟩ | ⟨cause, failed⟩ <;>
      exact nomatch isMalformed_of_wellFormed wellFormed failed
  · intro offended
    have malformed : ¬ WellFormed expression := by
      simpa [WellFormed, imp_iff_not_or] using offended
    obtain ⟨failure, kind, failed⟩ := resolve_of_not_wellFormed malformed
    cases failure with
    | malformedClause clause => exact .inl ⟨clause, failed candidates⟩
    | malformedVersion cause => exact .inr ⟨cause, failed candidates⟩
    | noMatch constraint => exact nomatch kind
  · intro before token after split earlier outside
    obtain ⟨failure, diagnosed, failed⟩ := resolve_of_offender split earlier outside
    constructor
    · intro comparator digit rest shape decimal
      rw [failed, diagnosed.eq_version shape decimal]
    · intro shapeless
      rw [failed, diagnosed.eq_clause shapeless]
  · intro others failure kind failed
    by_cases wellFormed : WellFormed expression
    · exact absurd kind (by simp [isMalformed_of_wellFormed wellFormed failed])
    · obtain ⟨only, -, always⟩ := resolve_of_not_wellFormed wellFormed
      rw [always others, ← failed, always candidates]

example : resolve ">=4.0, !=3.9.*, ^x" (VersionSet.ofList [⟨3, 9⟩]) =
    .error (.malformedVersion (.malformed "3.9.*")) := by decide

end BuildMatrix.Constraint
