import BuildMatrix.Manifest.Declaration
import BuildMatrix.Proofs.Manifest.Layout

/-!
# Lines of a manifest text

The lines of a text, stated by their ends: a line ends at a newline, or at a carriage return and a
newline, and what is left behind the last end is a line as well. The reader of active lines splits
at newlines only and leaves the carriage return to trimming, which comes to the same. On a line, quotes
enclose what is declared; they are neither white space nor digits.
-/

namespace BuildMatrix.Manifest

/-! ## Lines -/

/-- The lines of a text, without their ends. A carriage return alone ends no line. -/
inductive Lines : List Char → List (List Char) → Prop
  /-- There is no line in an empty text. -/
  | empty : Lines [] []
  /-- The last line may have no end. -/
  | unended {line : List Char} (filled : line ≠ []) (single : '\n' ∉ line) : Lines line [line]
  /-- A line that ends at a newline. -/
  | newline {line rest : List Char} {lines : List (List Char)} (single : '\n' ∉ line)
      (bare : line.getLast? ≠ some '\r') (others : Lines rest lines) :
      Lines (line ++ '\n' :: rest) (line :: lines)
  /-- A line that ends at a carriage return and a newline. -/
  | carriageReturn {line rest : List Char} {lines : List (List Char)} (single : '\n' ∉ line)
      (others : Lines rest lines) : Lines (line ++ '\r' :: '\n' :: rest) (line :: lines)

/-- Every text has lines. -/
theorem exists_lines (text : List Char) : ∃ lines, Lines text lines := by
  -- What stands behind the first newline is shorter than the text.
  induction size : text.length using Nat.strongRecOn generalizing text with
  | ind n ih =>
    by_cases newline : '\n' ∈ text
    · obtain ⟨line, rest, rfl, single⟩ := List.eq_append_cons_of_mem newline
      have shorter : rest.length < n := by
        simp only [List.length_append, List.length_cons] at size
        omega
      obtain ⟨lines, others⟩ := ih rest.length shorter rest rfl
      by_cases returned : line.getLast? = some '\r'
      · obtain ⟨front, rfl⟩ := List.getLast?_eq_some_iff.1 returned
        have plain : '\n' ∉ front := by
          intro member
          exact single (by simp [member])
        refine ⟨front :: lines, ?_⟩
        rw [List.append_assoc, List.singleton_append]
        exact .carriageReturn plain others
      · exact ⟨line :: lines, .newline single returned others⟩
    · cases text with
      | nil => exact ⟨[], .empty⟩
      | cons c rest => exact ⟨[c :: rest], .unended (by simp) newline⟩

/-- The active lines of a text are those of its trimmed lines that are neither empty nor comments.
-/
theorem activeLines_of_lines {text : List Char} {lines : List (List Char)}
    (split : Lines text lines) :
    activeLines text =
      (lines.map Text.trim).filter fun line => line ≠ [] ∧ line.head? ≠ some '#' := by
  have test : isActive = fun line => decide (line ≠ [] ∧ line.head? ≠ some '#') := by
    funext line
    cases line <;> simp [isActive]
  induction split with
  | empty => rfl
  | unended filled single =>
    rw [activeLines_of_single single, test]
    rfl
  | newline single bare others ih =>
    rw [activeLines_append, activeLines_of_single single, ih, test, ← List.filter_append]
    rfl
  | carriageReturn single others ih =>
    rw [activeLines_append_carriageReturn, activeLines_of_single single, ih, test,
      ← List.filter_append]
    rfl

/-! ## Quotes -/

/-- A quote is a double or a single one. -/
theorem isQuote_iff {c : Char} : isQuote c = true ↔ c = '"' ∨ c = '\'' := by
  simp [isQuote]

/-- A quote is not white space. -/
theorem isWhiteSpace_of_isQuote {c : Char} (quote : isQuote c = true) :
    Text.isWhiteSpace c = false := by
  rcases isQuote_iff.1 quote with rfl | rfl <;> decide

/-- A quote is not a digit. -/
theorem isDecimalDigit_of_isQuote {c : Char} (quote : isQuote c = true) :
    Text.isDecimalDigit c = false := by
  rcases isQuote_iff.1 quote with rfl | rfl <;> decide

end BuildMatrix.Manifest
