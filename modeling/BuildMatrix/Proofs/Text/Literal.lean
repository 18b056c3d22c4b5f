import BuildMatrix.Proofs.Text.WhiteSpace
import BuildMatrix.Text.Literal

/-!
# Runs, gaps and literals

Readers of a line take runs of characters of one class, and pass over white space before they look
for the next literal. A run ends in front of the first character outside its class. What is read
behind white space is a gap, the literal and the rest; and since no literal begins with white space,
there is no other way to divide the text.
-/

namespace BuildMatrix.Text

/-! ## Runs -/

section Runs

variable {inside : Char → Bool} {run : List Char} {stop : Char}

/-- The characters up to the first one outside are the run before it. -/
theorem takeWhile_run (all : ∀ c ∈ run, inside c = true) (outside : inside stop = false)
    (rest : List Char) : (run ++ stop :: rest).takeWhile inside = run := by
  rw [List.takeWhile_append_of_pos all, List.takeWhile_cons_of_neg (by simp [outside]),
    List.append_nil]

/-- The characters from the first one outside are what is behind the run. -/
theorem dropWhile_run (all : ∀ c ∈ run, inside c = true) (outside : inside stop = false)
    (rest : List Char) : (run ++ stop :: rest).dropWhile inside = stop :: rest := by
  rw [List.dropWhile_append_of_pos all, List.dropWhile_cons_of_neg (by simp [outside])]

end Runs

/-! ## Gaps -/

/-- Trimming stops at the first character that is no white space. -/
theorem trimStart_gap_append {gap text : List Char} {c : Char}
    (blank : gap.all isWhiteSpace = true) (start : text.head? = some c)
    (solid : isWhiteSpace c = false) : trimStart (gap ++ text) = text := by
  rw [trimStart_append_of_gap blank]
  cases text with
  | nil => exact nomatch start
  | cons first rest =>
    obtain rfl := Option.some.inj start
    simp [trimStart, solid]

/-! ## Literals -/

/-- A literal read behind white space stands behind a gap. -/
theorem exists_gap_of_after? {literal text rest : List Char}
    (read : after? literal (trimStart text) = some rest) :
    ∃ gap, gap.all isWhiteSpace = true ∧ text = gap ++ (literal ++ rest) := by
  obtain ⟨gap, blank, split⟩ := exists_gap text
  rw [after?_eq_some_iff] at read
  exact ⟨gap, blank, read ▸ split⟩

/-- A literal behind a gap is read behind white space. -/
theorem after?_trimStart_gap {literal gap : List Char} {c : Char}
    (blank : gap.all isWhiteSpace = true) (start : literal.head? = some c)
    (solid : isWhiteSpace c = false) (rest : List Char) :
    after? literal (trimStart (gap ++ (literal ++ rest))) = some rest := by
  have first : (literal ++ rest).head? = some c := by simp [start]
  rw [trimStart_gap_append blank first solid, after?_append]

end BuildMatrix.Text
