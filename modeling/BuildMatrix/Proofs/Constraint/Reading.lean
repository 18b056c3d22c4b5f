import BuildMatrix.Constraint.Evaluation
import BuildMatrix.Proofs.Constraint.Grammar
import BuildMatrix.Proofs.Traversal

/-!
# Reading tokens through their normal form

A token is normalized to the text of clauses, and that text is read again. For a token of the
grammar the clauses read accept exactly the versions that the token does; any other token stays as
it is and cannot be read as a clause. The clauses of a whole expression are those of its tokens, in
order, so its failure is that of its first token outside the grammar.
-/

namespace BuildMatrix

/-! ## The text of clauses -/

/-- A written clause is read back. -/
theorem Clause.ofChars_chars (clause : Clause) : Clause.ofChars clause.chars = .ok clause :=
  Clause.ofChars_eq_ok_iff.2 ⟨clause.version.chars, rfl, clause.version.spelled_chars⟩

/-- A clause is written with operator characters, ASCII digits and a dot. -/
theorem Clause.mem_chars {clause : Clause} {c : Char} (member : c ∈ clause.chars) :
    c ∈ ['<', '>', '=', '!', '.'] ∨ c.isDigit = true := by
  rw [Clause.chars, List.mem_append] at member
  rcases member with operator | version
  · left
    obtain ⟨comparator, bound⟩ := clause
    revert operator
    cases comparator <;> simp +contextual [Comparator.symbol, or_imp]
  · rcases clause.version.spelled_chars.chars c version with rfl | digit
    · exact .inl (by simp)
    · exact .inr digit

/-- No comma is written in a clause. -/
theorem Clause.comma_not_mem_chars (clause : Clause) : ',' ∉ clause.chars := by
  intro member
  rcases Clause.mem_chars member with punctuation | digit
  · exact absurd punctuation (by decide)
  · exact absurd digit (by decide)

/-- No white space is written in a clause. -/
theorem Clause.isSolid_chars (clause : Clause) : Text.isSolid clause.chars = true := by
  simp only [Text.isSolid, List.all_eq_true, Bool.not_eq_true']
  intro c member
  rcases Clause.mem_chars member with punctuation | digit
  · simp only [List.mem_cons, List.not_mem_nil, or_false] at punctuation
    rcases punctuation with rfl | rfl | rfl | rfl | rfl <;> decide
  · exact Text.isWhiteSpace_of_isDigit digit

/-- Something is written for every clause. -/
theorem Clause.chars_ne_nil (clause : Clause) : clause.chars ≠ [] := by
  obtain ⟨comparator, version⟩ := clause
  cases comparator <;> simp [Clause.chars, Comparator.symbol]

/-- The pieces of written clauses are the clauses. -/
theorem splitOn_intercalate_chars {clauses : List Clause} (some : clauses ≠ []) :
    List.splitOn ',' (List.intercalate [','] (clauses.map Clause.chars)) =
      clauses.map Clause.chars := by
  refine List.splitOn_intercalate ',' (fun part member => ?_) (by simpa using some)
  obtain ⟨clause, -, rfl⟩ := List.mem_map.1 member
  exact clause.comma_not_mem_chars

namespace Constraint

/-! ## One token -/

/-- The token spells a shorthand or a clause, and its upper bound fits in a version. -/
def IsToken (token : List Char) : Prop :=
  ∃ shorthand, Shorthand.Spelled token shorthand ∧ shorthand.Fits

/-- What is wrong with a token outside the grammar. -/
inductive Diagnosed (token : List Char) : ConstraintError → Prop
  /-- An operator with a decimal digit after it should have been followed by a version. -/
  | version (comparator : Comparator) {digit : Char} {rest : List Char}
      (shape : token = comparator.symbol ++ digit :: rest)
      (decimal : Text.isDecimalDigit digit = true) :
      Diagnosed token (.malformedVersion (.malformed (String.ofList (digit :: rest))))
  /-- Any other text is no clause. -/
  | clause (shapeless : ∀ (comparator : Comparator) digit rest,
      token = comparator.symbol ++ digit :: rest → Text.isDecimalDigit digit = false) :
      Diagnosed token (.malformedClause (String.ofList token))

/-- The pieces between the commas of a token's normal form. -/
def normalPieces (token : List Char) : List (List Char) :=
  List.splitOn ',' (normalizeToken token)

/-- The clauses that are read from a token's normal form. -/
def readToken (token : List Char) : Except ConstraintError (List Clause) :=
  (normalPieces token).mapM Clause.ofChars

/-- A shorthand that fits is written as clauses. -/
theorem normalizeToken_of_clauses? {token : List Char} {shorthand : Shorthand}
    {clauses : List Clause} (read : Shorthand.ofChars? token = some shorthand)
    (found : shorthand.clauses? = some clauses) :
    normalizeToken token = List.intercalate [','] (clauses.map Clause.chars) := by
  simp [normalizeToken, read, found]

/-- A token of the grammar is read as clauses that accept the same versions. -/
theorem readToken_of_spelled {token : List Char} {shorthand : Shorthand} (plain : ',' ∉ token)
    (spelled : Shorthand.Spelled token shorthand) (fits : shorthand.Fits) :
    ∃ clauses, readToken token = .ok clauses ∧ clauses ≠ [] ∧
      ∀ version, (∀ clause ∈ clauses, clause.holds version = true) ↔ shorthand.Accepts version := by
  rcases Shorthand.ofChars?_of_spelled spelled with read | ⟨clause, rfl, unread, parsed⟩
  · obtain ⟨clauses, found, some, accepts⟩ := Shorthand.clauses?_of_fits fits
    refine ⟨clauses, ?_, some, accepts⟩
    rw [readToken, normalPieces, normalizeToken_of_clauses? read found,
      splitOn_intercalate_chars some,
      Traversal.mapM_eq_ok_iff, List.forall₂_map_left_iff, List.forall₂_same]
    exact fun clause _ => clause.ofChars_chars
  · have unchanged : normalizeToken token = token := by simp [normalizeToken, unread]
    refine ⟨[clause], ?_, by simp, fun version => ?_⟩
    · rw [readToken, normalPieces, unchanged, List.splitOn_eq_singleton plain,
        Traversal.mapM_eq_ok_iff]
      exact .cons parsed .nil
    · simp [Clause.holds, Comparator.holds_iff, Shorthand.Accepts]

/-- A text that is no clause is diagnosed by whether a digit follows an operator. -/
theorem diagnosed_of_ofChars {token : List Char} {failure : ConstraintError}
    (solid : Text.isSolid token = true) (failed : Clause.ofChars token = .error failure) :
    Diagnosed token failure := by
  unfold Clause.ofChars at failed
  split at failed
  · next absent =>
    cases failed
    refine .clause fun comparator digit rest shape => ?_
    by_contra other
    have decimal : Text.isDecimalDigit digit = true := by simpa using other
    rw [shape, Comparator.split?_symbol_of_decimal comparator decimal] at absent
    exact nomatch absent
  · next comparator operand operator =>
    have shape := Comparator.eq_append_of_split? operator
    split at failed
    · next valid =>
      split at failed
      · exact nomatch failed
      · cases failed
        cases operand with
        | nil => exact nomatch valid
        | cons digit rest =>
          simp only [Clause.isOperand, Bool.and_eq_true] at valid
          exact .version comparator shape valid.1
    · next invalid =>
      cases failed
      refine .clause fun other digit rest same => ?_
      by_contra contrary
      have decimal : Text.isDecimalDigit digit = true := by simpa using contrary
      have found := Comparator.split?_symbol_of_decimal other decimal rest
      rw [← same, operator] at found
      cases found
      rw [shape, Text.isSolid, List.all_append] at solid
      simp only [List.all_cons, Bool.and_eq_true] at solid
      have valid : Clause.isOperand (digit :: rest) = true := by
        rw [Clause.isOperand, decimal, Bool.true_and]
        exact solid.2.2
      exact invalid valid

/-- A token outside the grammar fails, and its diagnosis is about the token as it was written. -/
theorem readToken_of_not_isToken {token : List Char} (plain : ',' ∉ token)
    (solid : Text.isSolid token = true) (outside : ¬ IsToken token) :
    ∃ failure, Diagnosed token failure ∧ readToken token = .error failure := by
  have unchanged : normalizeToken token = token := by
    unfold normalizeToken
    split
    · next clauses found =>
      obtain ⟨shorthand, read, fitting⟩ := Option.bind_eq_some_iff.1 found
      exact absurd ⟨shorthand, Shorthand.spelled_of_ofChars? read,
        Shorthand.fits_of_clauses? fitting⟩ outside
    · rfl
  cases read : Clause.ofChars token with
  | ok clause =>
    obtain ⟨operand, rfl, spelled⟩ := Clause.ofChars_eq_ok_iff.1 read
    exact absurd ⟨_, .comparison clause.comparator (.plain spelled), trivial⟩ outside
  | error failure =>
    refine ⟨failure, diagnosed_of_ofChars solid read, ?_⟩
    rw [readToken, normalPieces, unchanged, List.splitOn_eq_singleton plain,
      Traversal.mapM_eq_error_iff]
    exact ⟨[], token, [], rfl, by simp, read⟩

/-! ## Whole expressions -/

/-- Tokens are not empty and hold neither commas nor white space. -/
theorem mem_tokens {expression token : List Char} (member : token ∈ tokens expression) :
    token ≠ [] ∧ ',' ∉ token ∧ Text.isSolid token = true := by
  obtain ⟨field, nonempty⟩ := List.mem_filter.1 member
  refine ⟨by simpa using nonempty, Text.not_mem_of_mem_splitOn field, ?_⟩
  have solid := Text.isSolid_squeeze expression
  simp only [Text.isSolid, List.all_eq_true] at solid ⊢
  exact fun c inside => solid c (Text.subset_of_mem_splitOn field inside)

/-- A token is written as clauses or left as it is. -/
theorem normalPieces_cases {token : List Char} (plain : ',' ∉ token) :
    (∃ clauses : List Clause, normalPieces token = clauses.map Clause.chars) ∨
      normalizeToken token = token ∧ normalPieces token = [token] := by
  unfold normalPieces normalizeToken
  split
  · next clauses found =>
    obtain ⟨shorthand, -, fitting⟩ := Option.bind_eq_some_iff.1 found
    obtain ⟨same, stands, some, -⟩ :=
      Shorthand.clauses?_of_fits (Shorthand.fits_of_clauses? fitting)
    rw [fitting] at stands
    cases stands
    exact .inl ⟨clauses, splitOn_intercalate_chars some⟩
  · exact .inr ⟨rfl, List.splitOn_eq_singleton plain⟩

/-- The pieces of a token's normal form are not empty and hold no white space. -/
theorem mem_normalPieces {expression token piece : List Char} (among : token ∈ tokens expression)
    (member : piece ∈ normalPieces token) : piece ≠ [] ∧ Text.isSolid piece = true := by
  obtain ⟨nonempty, plain, solid⟩ := mem_tokens among
  rcases normalPieces_cases plain with ⟨clauses, written⟩ | ⟨-, unchanged⟩
  · rw [written] at member
    obtain ⟨clause, -, rfl⟩ := List.mem_map.1 member
    exact ⟨clause.chars_ne_nil, clause.isSolid_chars⟩
  · rw [unchanged, List.mem_singleton] at member
    exact member ▸ ⟨nonempty, solid⟩

/-- Joined normal tokens are divided into what the tokens are written as. -/
theorem splitOn_normalTokens {list : List (List Char)} (some : list ≠ []) :
    List.splitOn ',' (List.intercalate [','] (list.map normalizeToken)) =
      list.flatMap normalPieces := by
  rw [Text.splitOn_intercalate_flatMap (by simpa using some), List.flatMap_map]
  rfl

/-- The pieces of a normal form are those of its tokens' normal forms. -/
theorem pieces_normalize (expression : String) :
    pieces (normalize expression).toList = (tokens expression.toList).flatMap normalPieces := by
  rw [normalize, String.toList_ofList, pieces]
  by_cases none : tokens expression.toList = []
  · rw [none]
    rfl
  · have clean : ∀ piece ∈ (tokens expression.toList).flatMap normalPieces,
        piece ≠ [] ∧ Text.isSolid piece = true := by
      intro piece member
      obtain ⟨token, among, inside⟩ := List.mem_flatMap.1 member
      exact mem_normalPieces among inside
    have trimmed : ((tokens expression.toList).flatMap normalPieces).map Text.trim =
        (tokens expression.toList).flatMap normalPieces := by
      rw [List.map_congr_left fun piece member => Text.trim_eq_self (clean piece member).2,
        List.map_id']
    rw [splitOn_normalTokens none, trimmed, List.filter_eq_self]
    exact fun piece member => by simpa using (clean piece member).1

/-- The clauses of a normal form are those of its tokens. -/
theorem mapM_pieces_normalize (expression : String) :
    (pieces (normalize expression).toList).mapM Clause.ofChars =
      ((tokens expression.toList).mapM readToken).map List.flatten := by
  rw [pieces_normalize, Traversal.mapM_flatMap]
  rfl

end Constraint

end BuildMatrix
