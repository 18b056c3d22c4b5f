import BuildMatrix.Proofs.Constraint.Meaning

/-!
# Evaluation as a conjunction

A text is canonical when it has a piece and all its pieces are clauses. Evaluating a canonical text
selects the candidates that satisfy every piece, whatever was left after the pieces before it. Any
other text is malformed whatever the candidates, with the failure of its first piece that is no
clause. So neither the order of the pieces nor their number counts, and what one text leaves another
one selects from as the two do together.
-/

namespace BuildMatrix.Constraint

/-- The text is a clause. -/
def IsClause (text : List Char) : Prop :=
  ∃ clause : Clause, clause.Spelled text

/-- The text has a piece, and all its pieces are clauses. -/
def Canonical (text : String) : Prop :=
  pieces text.toList ≠ [] ∧ ∀ piece ∈ pieces text.toList, IsClause piece

/-- The piece is a clause, and the version stands in its relation to its bound. -/
def PieceAccepts (piece : List Char) (version : Version) : Prop :=
  ∃ clause : Clause, clause.Spelled piece ∧ clause.comparator.Relates version clause.version

/-- Every piece of the text accepts the version. -/
def Satisfies (text : String) (version : Version) : Prop :=
  ∀ piece ∈ pieces text.toList, PieceAccepts piece version

/-! ## Pieces -/

section
variable {text piece : List Char}

/-- A piece is what trimming leaves of a field, unless that is nothing. -/
theorem mem_pieces_iff :
    piece ∈ pieces text ↔
      piece ≠ [] ∧ ∃ field ∈ List.splitOn ',' text, Text.trim field = piece := by
  simp [pieces, and_comm]

/-- A piece has no white space at its ends. -/
theorem trim_of_mem_pieces (member : piece ∈ pieces text) : Text.trim piece = piece := by
  obtain ⟨-, field, -, rfl⟩ := mem_pieces_iff.1 member
  exact Text.trim_trim field

/-- A comma ends the pieces before it and begins those after it. -/
theorem pieces_append_comma (first rest : List Char) :
    pieces (first ++ ',' :: rest) = pieces first ++ pieces rest := by
  rw [pieces, List.splitOn_append_cons_self, List.map_append, List.filter_append]
  rfl

/-- The pieces of joined parts are those of every part in turn. -/
theorem pieces_intercalate (parts : List (List Char)) :
    pieces (List.intercalate [','] parts) = parts.flatMap pieces := by
  induction parts with
  | nil => rfl
  | cons part others ih =>
    cases others with
    | nil => simp
    | cons next more =>
      rw [List.intercalate_cons_cons, List.append_assoc, List.singleton_append,
        pieces_append_comma, ih]
      rfl

/-- White space has no pieces. -/
theorem pieces_of_blank (blank : text.all Text.isWhiteSpace = true) : pieces text = [] := by
  have plain : ',' ∉ text := fun member =>
    absurd (List.all_eq_true.1 blank ',' member) (by decide)
  rw [pieces, List.splitOn_eq_singleton plain, List.map_singleton, Text.trim_of_gap blank]
  rfl

/-- Of joined parts, only those that are not blank have pieces. -/
theorem mem_pieces_intercalate_iff {parts : List (List Char)} :
    piece ∈ pieces (List.intercalate [','] parts) ↔
      ∃ part, part.all Text.isWhiteSpace = false ∧ part ∈ parts ∧ piece ∈ pieces part := by
  rw [pieces_intercalate, List.mem_flatMap]
  refine exists_congr fun part => ?_
  by_cases blank : part.all Text.isWhiteSpace = true
  · simp [blank, pieces_of_blank blank]
  · simp [blank]

end

/-! ## Reading all pieces -/

/-- A text without margins is read as it is. -/
theorem parse_of_trimmed {piece : List Char} (trimmed : Text.trim piece = piece) :
    Clause.parse (String.ofList piece) = Clause.ofChars piece := by
  rw [Clause.parse, String.toList_ofList, trimmed]

/-- A clause is read once only. -/
theorem spelled_unique {piece : List Char} {clause other : Clause} (spelled : clause.Spelled piece)
    (again : other.Spelled piece) : clause = other := by
  rw [← Clause.ofChars_eq_ok_iff] at spelled again
  exact Except.ok.inj (spelled.symm.trans again)

/-- A piece accepts the versions that satisfy the clause it spells. -/
theorem pieceAccepts_iff {piece : List Char} {clause : Clause} (spelled : clause.Spelled piece)
    {version : Version} : PieceAccepts piece version ↔ clause.holds version = true := by
  rw [Clause.holds, Comparator.holds_iff]
  constructor
  · rintro ⟨other, again, related⟩
    rwa [spelled_unique again spelled] at related
  · intro related
    exact ⟨clause, spelled, related⟩

/-- Clauses that are read from pieces hold for what all the pieces accept. -/
theorem exists_clauses {list : List (List Char)} (grammatical : ∀ piece ∈ list, IsClause piece) :
    ∃ clauses, list.mapM Clause.ofChars = .ok clauses ∧ (list ≠ [] → clauses ≠ []) ∧
      ∀ version, (∀ clause ∈ clauses, clause.holds version = true) ↔
        ∀ piece ∈ list, PieceAccepts piece version := by
  obtain ⟨clauses, spelled⟩ := Traversal.exists_forall₂_iff.2 grammatical
  have read : list.mapM Clause.ofChars = .ok clauses :=
    Traversal.mapM_eq_ok_iff.2 (spelled.imp fun _ _ => Clause.ofChars_eq_ok_iff.2)
  refine ⟨clauses, read, ?_, fun version => ?_⟩
  · rintro some rfl
    cases spelled
    exact some rfl
  · apply Traversal.forall_mem_iff_of_forall₂ spelled
    exact fun piece clause spelled => (pieceAccepts_iff spelled).symm

/-! ## Evaluating -/

/-- A canonical text selects the candidates that satisfy it. -/
theorem evaluate_of_canonical {text : String} (canonical : Canonical text)
    (candidates : VersionSet) :
    Selects candidates (Satisfies text) text (evaluate text candidates) := by
  obtain ⟨clauses, read, some, accept⟩ := exists_clauses canonical.2
  refine ⟨satisfying clauses candidates, fun version => ?_,
    evaluate_of_clauses candidates read (some canonical.1)⟩
  rw [mem_satisfying, accept]
  rfl

/-- A text without pieces is malformed as a whole. -/
theorem evaluate_of_blank {text : String} (blank : pieces text.toList = [])
    (candidates : VersionSet) : evaluate text candidates = .error (.malformedClause text) := by
  apply evaluate_of_nil
  rw [blank]
  rfl

/-- The first piece that is no clause fails a text with its own failure. -/
theorem evaluate_of_offender {text : String} {before after : List (List Char)} {piece : List Char}
    (split : pieces text.toList = before ++ piece :: after)
    (earlier : ∀ other ∈ before, IsClause other) (outside : ¬ IsClause piece) :
    ∃ failure, Clause.parse (String.ofList piece) = .error failure ∧
      ∀ candidates, evaluate text candidates = .error failure := by
  have member : piece ∈ pieces text.toList := by
    rw [split]
    simp
  have trimmed : Text.trim piece = piece := trim_of_mem_pieces member
  rw [parse_of_trimmed trimmed]
  cases read : Clause.ofChars piece with
  | ok clause => exact absurd ⟨clause, Clause.ofChars_eq_ok_iff.1 read⟩ outside
  | error failure =>
    refine ⟨failure, rfl, fun candidates => evaluate_of_error candidates ?_⟩
    rw [Traversal.mapM_eq_error_iff]
    refine ⟨before, piece, after, split, fun other member => ?_, read⟩
    obtain ⟨clause, spelled⟩ := earlier other member
    exact ⟨clause, Clause.ofChars_eq_ok_iff.2 spelled⟩

/-- Whatever is wrong with a text that is no clause is wrong with the text alone. -/
theorem isMalformed_of_parse {text : String} {failure : ConstraintError}
    (failed : Clause.parse text = .error failure) : failure.isMalformed = true := by
  unfold Clause.parse Clause.ofChars at failed
  split at failed
  · cases failed
    rfl
  · split at failed
    · split at failed
      · exact nomatch failed
      · cases failed
        rfl
    · cases failed
      rfl

/-- A text that is not canonical is malformed. -/
theorem malformed_of_not_canonical {text : String} (irregular : ¬ Canonical text)
    (candidates : VersionSet) : Malformed (evaluate text candidates) := by
  by_cases blank : pieces text.toList = []
  · exact ⟨.malformedClause text, evaluate_of_blank blank candidates, rfl⟩
  · have fails : ∃ piece ∈ pieces text.toList, ¬ IsClause piece := by
      by_contra none
      exact irregular ⟨blank, by simpa using none⟩
    obtain ⟨before, piece, after, split, earlier, outside⟩ := Traversal.exists_first_failing fails
    obtain ⟨failure, read, failed⟩ := evaluate_of_offender split earlier outside
    exact ⟨failure, failed candidates, isMalformed_of_parse read⟩

/-- What the pieces of two texts are, in any order and number, is all that counts. -/
theorem selectsAlike_of_pieces {text other : String} (canonical : Canonical text)
    (same : ∀ piece, piece ∈ pieces other.toList ↔ piece ∈ pieces text.toList)
    (candidates : VersionSet) :
    SelectsAlike (evaluate text candidates) (evaluate other candidates) := by
  obtain ⟨some, grammatical⟩ := canonical
  obtain ⟨piece, member⟩ := List.exists_mem_of_ne_nil _ some
  have canonicalOther : Canonical other :=
    ⟨List.ne_nil_of_mem ((same piece).2 member),
      fun piece member => grammatical piece ((same piece).1 member)⟩
  have satisfies (version : Version) : Satisfies other version ↔ Satisfies text version := by
    simp only [Satisfies, same]
  apply (evaluate_of_canonical ⟨some, grammatical⟩ candidates).alike
    (evaluate_of_canonical canonicalOther candidates)
  intro version
  rw [satisfies]

/-- Selecting with one text after another is selecting with the two joined by a comma. -/
theorem selectsAlike_append {text next : String} (canonical : Canonical text)
    (canonicalNext : Canonical next) (candidates : VersionSet) :
    SelectsAlike (evaluate text candidates >>= evaluate next)
      (evaluate (text ++ "," ++ next) candidates) := by
  have joint : pieces (text ++ "," ++ next).toList =
      pieces text.toList ++ pieces next.toList := by
    rw [← pieces_append_comma]
    simp
  have canonicalJoint : Canonical (text ++ "," ++ next) := by
    rw [Canonical, joint, List.forall_mem_append]
    exact ⟨by simp [canonical.1], canonical.2, canonicalNext.2⟩
  have satisfies (version : Version) :
      Satisfies (text ++ "," ++ next) version ↔ Satisfies text version ∧ Satisfies next version := by
    rw [Satisfies, joint, List.forall_mem_append]
    rfl
  have first := evaluate_of_canonical canonical candidates
  have together := evaluate_of_canonical canonicalJoint candidates
  cases left : evaluate text candidates with
  | ok middle =>
    obtain ⟨-, members⟩ := first.eq_ok_iff.1 left
    apply (evaluate_of_canonical canonicalNext middle).alike together
    intro version
    rw [members, satisfies, and_assoc]
  | error failure =>
    obtain ⟨rfl, none⟩ := first.eq_error_iff.1 left
    have unmatched : evaluate (text ++ "," ++ next) candidates =
        .error (.noMatch (text ++ "," ++ next)) :=
      together.eq_error_iff.2 ⟨rfl, fun version member both =>
        none version member ((satisfies version).1 both).1⟩
    rw [unmatched]
    exact ⟨by simp [bind, Except.bind], by simp [bind, Except.bind]⟩

/-- Evaluation is one conjunction. A text without pieces is malformed as a whole; otherwise the
first piece that is no clause fails it, whatever the candidates and the pieces before; otherwise it
selects the candidates that all pieces accept, and fails with the whole text when there are none.
Hence its pieces may come in any order and number, the parts that it is joined from likewise, with
blank ones among them, and one text after another selects as the two joined by a comma. -/
theorem evaluate_selects_conjunction (text : String) (candidates : VersionSet) :
    (pieces text.toList = [] → evaluate text candidates = .error (.malformedClause text)) ∧
    (∀ before piece after, pieces text.toList = before ++ piece :: after →
      (∀ earlier ∈ before, IsClause earlier) → ¬ IsClause piece →
        ∃ failure, Clause.parse (String.ofList piece) = .error failure ∧
          evaluate text candidates = .error failure) ∧
    (Canonical text →
      ((∃ version ∈ candidates, Satisfies text version) →
        ∃ selected, evaluate text candidates = .ok selected ∧
          ∀ version, version ∈ selected ↔ version ∈ candidates ∧ Satisfies text version) ∧
      ((∀ version ∈ candidates, ¬ Satisfies text version) →
        evaluate text candidates = .error (.noMatch text)) ∧
      (∀ other : String,
        (∀ piece, piece ∈ pieces other.toList ↔ piece ∈ pieces text.toList) →
        SelectsAlike (evaluate text candidates) (evaluate other candidates)) ∧
      (∀ parts others, text = String.ofList (List.intercalate [','] parts) →
        (∀ part : List Char, part.all Text.isWhiteSpace = false →
          (part ∈ others ↔ part ∈ parts)) →
        SelectsAlike (evaluate text candidates)
          (evaluate (String.ofList (List.intercalate [','] others)) candidates)) ∧
      (∀ next, Canonical next →
        SelectsAlike (evaluate text candidates >>= evaluate next)
          (evaluate (text ++ "," ++ next) candidates))) := by
  refine ⟨fun blank => evaluate_of_blank blank candidates, ?_,
    fun canonical => ⟨?_, ?_, ?_, ?_, ?_⟩⟩
  · intro before piece after split earlier outside
    obtain ⟨failure, read, failed⟩ := evaluate_of_offender split earlier outside
    exact ⟨failure, read, failed candidates⟩
  · exact (evaluate_of_canonical canonical candidates).exists_of_admitted
  · intro none
    exact (evaluate_of_canonical canonical candidates).eq_error_iff.2 ⟨rfl, none⟩
  · exact fun other same => selectsAlike_of_pieces canonical same candidates
  · intro parts others shape same
    subst shape
    apply selectsAlike_of_pieces canonical
    intro piece
    rw [String.toList_ofList, String.toList_ofList, mem_pieces_intercalate_iff, mem_pieces_intercalate_iff]
    exact exists_congr fun part => and_congr_right fun solid => and_congr_left' (same part solid)
  · exact fun next canonicalNext => selectsAlike_append canonical canonicalNext candidates

example : evaluate ">=4.0, ~>3.10" (VersionSet.ofList [⟨3, 9⟩]) =
    .error (.malformedClause "~>3.10") := by decide

end BuildMatrix.Constraint
