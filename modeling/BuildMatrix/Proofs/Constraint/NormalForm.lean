import BuildMatrix.Proofs.Constraint.Conjunction

/-!
# Normal forms

Normalizing an expression writes its tokens as pieces that normalizing leaves as they are, so it
changes nothing when it is done again. White space has no influence on the normal form, and the
normal form of two expressions joined by a comma is that of the one and that of the other. An
expression that is not malformed has a normal form of clauses; and one that is canonical before it
is normalized selects the same either way.
-/

namespace BuildMatrix.Constraint

/-! ## Normal tokens -/

/-- A written clause is left as it is, also by the rule that drops the patch of an exclusion. -/
theorem normalizeToken_chars (clause : Clause) : normalizeToken clause.chars = clause.chars := by
  have spelled : Shorthand.Spelled clause.chars (.comparison clause.comparator clause.version) :=
    .comparison clause.comparator (.plain clause.version.spelled_chars)
  rcases Shorthand.ofChars?_of_spelled spelled with read | ⟨-, -, unread, -⟩
  · exact (normalizeToken_of_clauses? read rfl).trans List.intercalate_singleton
  · simp [normalizeToken, unread]

/-- What a token is written as is left as it is. -/
theorem normalizeToken_of_mem_normalPieces {token piece : List Char} (plain : ',' ∉ token)
    (member : piece ∈ normalPieces token) : normalizeToken piece = piece := by
  rcases normalPieces_cases plain with ⟨clauses, written⟩ | ⟨unchanged, only⟩
  · rw [written] at member
    obtain ⟨clause, -, rfl⟩ := List.mem_map.1 member
    exact normalizeToken_chars clause
  · rw [only, List.mem_singleton] at member
    rw [member, unchanged]

/-- A token of the grammar is written as clauses. -/
theorem isClause_of_mem_normalPieces {token piece : List Char} (plain : ',' ∉ token)
    (isToken : IsToken token) (member : piece ∈ normalPieces token) : IsClause piece := by
  obtain ⟨shorthand, spelled, fits⟩ := isToken
  obtain ⟨clauses, read, -⟩ := readToken_of_spelled plain spelled fits
  rw [readToken, Traversal.mapM_eq_ok_iff] at read
  obtain ⟨clause, found⟩ := Traversal.exists_forall₂_iff.1 ⟨clauses, read⟩ piece member
  exact ⟨clause, Clause.ofChars_eq_ok_iff.1 found⟩

/-- The pieces that tokens are written as make up the joined tokens. -/
theorem intercalate_normalPieces (list : List (List Char)) :
    List.intercalate [','] (list.flatMap normalPieces) =
      List.intercalate [','] (list.map normalizeToken) := by
  by_cases none : list = []
  · rw [none]
    rfl
  · rw [← splitOn_normalTokens none, List.intercalate_splitOn]

/-! ## Tokens and pieces -/

/-- Where no piece has white space inside, the tokens are the pieces. -/
theorem tokens_eq_pieces {text : List Char}
    (solid : ∀ piece ∈ pieces text, Text.isSolid piece = true) : tokens text = pieces text := by
  have same : ∀ field ∈ List.splitOn ',' text, Text.squeeze field = Text.trim field := by
    intro field member
    have trimmed : Text.isSolid (Text.trim field) = true := by
      by_cases blank : Text.trim field = []
      · rw [blank]
        rfl
      · exact solid _ (mem_pieces_iff.2 ⟨blank, field, member, rfl⟩)
    rw [← Text.squeeze_trim, Text.squeeze_eq_self trimmed]
  have fields : List.splitOn ',' (Text.squeeze text) =
      (List.splitOn ',' text).map Text.squeeze := Text.splitOn_filter (by decide) text
  rw [tokens, pieces, fields, List.map_congr_left same]

/-- The tokens of a normal form are what the tokens of the expression are written as. -/
theorem tokens_normalize (expression : String) :
    tokens (normalize expression).toList = (tokens expression.toList).flatMap normalPieces := by
  rw [← pieces_normalize]
  apply tokens_eq_pieces
  intro piece member
  rw [pieces_normalize] at member
  obtain ⟨token, among, inside⟩ := List.mem_flatMap.1 member
  exact (mem_normalPieces among inside).2

/-- A comma ends the tokens before it and begins those after it. -/
theorem tokens_append_comma (first rest : List Char) :
    tokens (first ++ ',' :: rest) = tokens first ++ tokens rest := by
  have squeezed : Text.squeeze (first ++ ',' :: rest) =
      Text.squeeze first ++ ',' :: Text.squeeze rest := by
    rw [Text.squeeze, List.filter_append, List.filter_cons_of_pos (by decide)]
    rfl
  rw [tokens, squeezed, List.splitOn_append_cons_self, List.filter_append]
  rfl

/-! ## Normal expressions -/

/-- A normal form is its own normal form. -/
theorem normalize_normalize (expression : String) :
    normalize (normalize expression) = normalize expression := by
  have settled : ∀ piece ∈ (tokens expression.toList).flatMap normalPieces,
      normalizeToken piece = piece := by
    intro piece member
    obtain ⟨token, among, inside⟩ := List.mem_flatMap.1 member
    exact normalizeToken_of_mem_normalPieces (mem_tokens among).2.1 inside
  rw [normalize, tokens_normalize, List.map_congr_left settled, List.map_id', intercalate_normalPieces]
  rfl

/-- Only the characters that are no white space count. -/
theorem normalize_of_squeeze {expression other : String}
    (same : Text.squeeze expression.toList = Text.squeeze other.toList) :
    normalize expression = normalize other := by
  rw [normalize, normalize, tokens, tokens, same]

/-- A normal form is empty when the expression has no tokens. -/
theorem normalize_eq_empty_iff {expression : String} :
    normalize expression = "" ↔ tokens expression.toList = [] := by
  constructor
  · intro empty
    have none : (tokens expression.toList).flatMap normalPieces = [] := by
      rw [← tokens_normalize, empty]
      rfl
    rw [List.flatMap_eq_nil_iff] at none
    apply List.eq_nil_iff_forall_not_mem.2
    intro token member
    exact List.splitOn_ne_nil ',' _ (none token member)
  · intro blank
    rw [normalize, blank]
    rfl

/-- The pieces between the commas of a normal form are what the tokens are written as. -/
theorem splitOn_normalize {expression : String} (some : normalize expression ≠ "") :
    List.splitOn ',' (normalize expression).toList =
      (tokens expression.toList).flatMap normalPieces := by
  rw [Ne, normalize_eq_empty_iff] at some
  rw [normalize, String.toList_ofList, splitOn_normalTokens some]

/-- Joined expressions have the joined normal form, empty ones left out. -/
theorem normalize_append (expression other : String) :
    normalize (expression ++ "," ++ other) =
      if normalize expression = "" then normalize other
      else if normalize other = "" then normalize expression
      else normalize expression ++ "," ++ normalize other := by
  have joint : tokens (expression ++ "," ++ other).toList =
      tokens expression.toList ++ tokens other.toList := by
    rw [← tokens_append_comma]
    simp
  rw [normalize, joint, List.map_append]
  split
  · next blank =>
    rw [normalize_eq_empty_iff.1 blank]
    rfl
  · next some =>
    split
    · next blank =>
      rw [normalize_eq_empty_iff.1 blank, List.map_nil, List.append_nil]
      rfl
    · next more =>
      rw [normalize_eq_empty_iff] at some more
      rw [Text.intercalate_append (by simpa using some) (by simpa using more)]
      apply String.toList_inj.1
      simp [normalize]

/-- Unless an expression is malformed, its normal form is made of clauses. -/
theorem isClause_of_mem_normalize {expression : String} {candidates : VersionSet}
    (sound : ¬ Malformed (resolve expression candidates)) :
    ∀ piece ∈ List.splitOn ',' (normalize expression).toList, IsClause piece := by
  have wellFormed : WellFormed expression := by
    by_contra malformed
    obtain ⟨failure, kind, failed⟩ := resolve_of_not_wellFormed malformed
    exact sound ⟨failure, failed candidates, kind⟩
  intro piece member
  rw [splitOn_normalize (mt normalize_eq_empty_iff.1 wellFormed.1)] at member
  obtain ⟨token, among, inside⟩ := List.mem_flatMap.1 member
  exact isClause_of_mem_normalPieces (mem_tokens among).2.1 (wellFormed.2 token among) inside

/-- Normalizing is a stable rewriting: a second time changes nothing, white space has no influence,
an expression joined from two has the joined normal form, empty ones left out, no piece of a normal
form is empty, and unless the expression is malformed, every piece is an operator with a version of
two numbers. -/
theorem normalize_is_stable (expression other : String) :
    normalize (normalize expression) = normalize expression ∧
    (Text.squeeze expression.toList = Text.squeeze other.toList →
      normalize expression = normalize other) ∧
    normalize (expression ++ "," ++ other) =
      (if normalize expression = "" then normalize other
      else if normalize other = "" then normalize expression
      else normalize expression ++ "," ++ normalize other) ∧
    (normalize expression ≠ "" → [] ∉ List.splitOn ',' (normalize expression).toList) ∧
    (∀ candidates, ¬ Malformed (resolve expression candidates) →
      ∀ piece ∈ List.splitOn ',' (normalize expression).toList, ∃ clause : Clause,
        clause.Spelled piece) := by
  refine ⟨normalize_normalize expression, normalize_of_squeeze, normalize_append expression other,
    ?_, fun candidates => isClause_of_mem_normalize⟩
  intro some empty
  rw [splitOn_normalize some] at empty
  obtain ⟨token, among, inside⟩ := List.mem_flatMap.1 empty
  exact (mem_normalPieces among inside).1 rfl

example : normalize "^3.08 ,, != 3.9.1, ~>3.1" = ">=3.8,<4.0,!=3.9,~>3.1" := by decide

/-! ## Canonical expressions -/

/-- There is no white space in a clause. -/
theorem IsClause.solid {piece : List Char} (isClause : IsClause piece) :
    Text.isSolid piece = true := by
  obtain ⟨clause, operand, rfl, spelled⟩ := isClause
  have operator : Text.isSolid clause.comparator.symbol = true := by
    cases clause.comparator <;> decide
  have version := spelled.solid
  rw [Text.isSolid] at operator version ⊢
  rw [List.all_append, operator, version, Bool.and_self]

/-- A clause is a token, and accepts the same versions as a token. -/
theorem tokenAccepts_iff {piece : List Char} (isClause : IsClause piece) (version : Version) :
    TokenAccepts piece version ↔ PieceAccepts piece version := by
  obtain ⟨clause, operand, shape, spelled⟩ := isClause
  have token : Shorthand.Spelled piece (.comparison clause.comparator clause.version) :=
    shape ▸ .comparison clause.comparator (.plain spelled)
  constructor
  · rintro ⟨shorthand, again, accepted⟩
    obtain rfl := again.unique token
    exact ⟨clause, ⟨operand, shape, spelled⟩, accepted⟩
  · rintro ⟨other, again, related⟩
    obtain rfl := spelled_unique again ⟨operand, shape, spelled⟩
    exact ⟨_, token, related⟩

/-- The tokens of a canonical text are its pieces. -/
theorem tokens_of_canonical {text : String} (canonical : Canonical text) :
    tokens text.toList = pieces text.toList :=
  tokens_eq_pieces fun piece member => (canonical.2 piece member).solid

/-- A canonical text is well-formed. -/
theorem Canonical.wellFormed {text : String} (canonical : Canonical text) : WellFormed text := by
  have same := tokens_of_canonical canonical
  refine ⟨same ▸ canonical.1, ?_⟩
  intro token member
  rw [same] at member
  obtain ⟨clause, operand, rfl, spelled⟩ := canonical.2 token member
  exact ⟨_, .comparison clause.comparator (.plain spelled), trivial⟩

/-- A canonical text admits as an expression what it accepts as it stands. -/
theorem Canonical.admits_iff {text : String} (canonical : Canonical text) (version : Version) :
    Admits text version ↔ Satisfies text version := by
  rw [Admits, tokens_of_canonical canonical]
  exact forall₂_congr fun piece member => tokenAccepts_iff (canonical.2 piece member) version

/-- Normalizing first makes no difference to what is canonical: a text that is not malformed without
being normalized selects the same versions when it is, or finds no match either way. And normalizing
twice makes no difference to anything, down to the text of a failure. -/
theorem resolve_agrees_on_canonical (text : String) (candidates : VersionSet) :
    (¬ Malformed (evaluate text candidates) →
      SelectsAlike (evaluate text candidates) (resolve text candidates)) ∧
    resolve (normalize text) candidates = resolve text candidates := by
  constructor
  · intro sound
    have canonical : Canonical text := by
      by_contra irregular
      exact sound (malformed_of_not_canonical irregular candidates)
    apply (evaluate_of_canonical canonical candidates).alike
      (resolve_of_wellFormed canonical.wellFormed candidates)
    intro version
    rw [canonical.admits_iff]
  · rw [resolve, resolve, normalize_normalize]

end BuildMatrix.Constraint
