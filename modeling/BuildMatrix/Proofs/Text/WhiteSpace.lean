import BuildMatrix.Text.DecimalDigit
import BuildMatrix.Text.WhiteSpace

/-!
# Laws of trimming

White space at an end of a text makes no difference once the text is trimmed. Nothing is left
exactly of a text of white space, and any other character at the front stays at the front. A text is
what trimming leaves of it between two gaps, so it is trimmed once for all, and squeezing it leaves
the same whether it was trimmed or not. No digit is white space, neither an ASCII digit nor one of
any other script.
-/

namespace BuildMatrix.Text

/-- No run of decimal digits meets a range of white space. -/
theorem digitZeros_apart :
    (digitZeros.all fun start => whiteSpaceRanges.all fun range =>
      decide (range.2 < start) || decide (start + 10 ≤ range.1)) = true := by
  decide

/-- A decimal digit of any script is no white space. -/
theorem isWhiteSpace_of_isDecimalDigit {c : Char} (digit : isDecimalDigit c = true) :
    isWhiteSpace c = false := by
  obtain ⟨start, known, within⟩ := List.any_eq_true.1 digit
  simp only [Bool.and_eq_true, decide_eq_true_eq] at within
  refine List.any_eq_false.2 fun range listed => ?_
  have apart := List.all_eq_true.1 (List.all_eq_true.1 digitZeros_apart start known) range listed
  simp only [Bool.or_eq_true, decide_eq_true_eq] at apart
  simp only [Bool.and_eq_true, decide_eq_true_eq]
  omega

/-- An ASCII digit is no white space. -/
theorem isWhiteSpace_of_isDigit {c : Char} (digit : c.isDigit = true) :
    isWhiteSpace c = false :=
  isWhiteSpace_of_isDecimalDigit (isDecimalDigit_of_isDigit digit)

variable {gap text : List Char}

/-- White space in front is trimmed with the rest of the start. -/
theorem trimStart_append_of_gap (blank : gap.all isWhiteSpace = true) (text : List Char) :
    trimStart (gap ++ text) = trimStart text :=
  List.dropWhile_append_of_pos (List.all_eq_true.1 blank)

/-- Nothing is left of white space when its start is trimmed. -/
theorem trimStart_of_gap (blank : gap.all isWhiteSpace = true) : trimStart gap = [] := by
  have dropped := trimStart_append_of_gap blank []
  rwa [List.append_nil] at dropped

/-- White space behind is trimmed with the rest of the end. -/
theorem trimEnd_append_gap (blank : gap.all isWhiteSpace = true) (text : List Char) :
    trimEnd (text ++ gap) = trimEnd text := by
  have backward : gap.reverse.all isWhiteSpace = true := by rwa [List.all_reverse]
  have dropped : (gap.reverse ++ text.reverse).dropWhile isWhiteSpace =
      text.reverse.dropWhile isWhiteSpace := trimStart_append_of_gap backward text.reverse
  rw [trimEnd, trimEnd, List.reverse_append, dropped]

/-- White space in front of a text is trimmed. -/
theorem trim_gap_append (blank : gap.all isWhiteSpace = true) (text : List Char) :
    trim (gap ++ text) = trim text := by
  rw [trim, trim, trimStart_append_of_gap blank]

/-- White space behind a text is trimmed. -/
theorem trim_append_gap (blank : gap.all isWhiteSpace = true) (text : List Char) :
    trim (text ++ gap) = trim text := by
  have start : trimStart (text ++ gap) =
      if (trimStart text).isEmpty then trimStart gap else trimStart text ++ gap :=
    List.dropWhile_append
  rw [trim, trim, start]
  split
  · next empty => rw [trimStart_of_gap blank, List.isEmpty_iff.1 empty]
  · exact trimEnd_append_gap blank (trimStart text)

/-- Nothing is left of white space. -/
theorem trim_of_gap (blank : gap.all isWhiteSpace = true) : trim gap = [] := by
  rw [trim, trimStart_of_gap blank]
  rfl

/-- Any other character at the front of a text stays there. -/
theorem trim_cons {c : Char} (solid : isWhiteSpace c = false) (text : List Char) :
    trim (c :: text) = c :: trimEnd text := by
  have start : trimStart (c :: text) = c :: text := by simp [trimStart, solid]
  have last : (text.reverse ++ [c]).dropWhile isWhiteSpace =
      text.reverse.dropWhile isWhiteSpace ++ [c] := by
    rw [List.dropWhile_append]
    split
    · next empty => simp [List.isEmpty_iff.1 empty, solid]
    · rfl
  rw [trim, start, trimEnd, List.reverse_cons, last, List.reverse_append]
  rfl

/-! ## Gaps -/

/-- A text is a gap and what trimming leaves of it. -/
theorem exists_gap (text : List Char) :
    ∃ gap, gap.all isWhiteSpace = true ∧ text = gap ++ trimStart text := by
  refine ⟨text.takeWhile isWhiteSpace, List.all_takeWhile, ?_⟩
  exact List.takeWhile_append_dropWhile.symm

/-- A text is what trimming leaves of it between two gaps. -/
theorem exists_gaps (text : List Char) :
    ∃ before after, before.all isWhiteSpace = true ∧ after.all isWhiteSpace = true ∧
      text = before ++ (trim text ++ after) := by
  obtain ⟨before, blank, split⟩ := exists_gap text
  obtain ⟨after, blankAfter, backward⟩ := exists_gap (trimStart text).reverse
  refine ⟨before, after.reverse, blank, by rwa [List.all_reverse], ?_⟩
  have forward : trimStart text = trim text ++ after.reverse := by
    rw [← List.reverse_reverse (trimStart text), backward, List.reverse_append]
    rfl
  rw [← forward]
  exact split

/-- A text is trimmed once for all. -/
@[simp]
theorem trim_trim (text : List Char) : trim (trim text) = trim text := by
  obtain ⟨before, after, blank, blankAfter, split⟩ := exists_gaps text
  calc trim (trim text)
      = trim (before ++ (trim text ++ after)) := by
        rw [trim_gap_append blank, trim_append_gap blankAfter]
    _ = trim text := by rw [← split]

/-- Nothing is left of white space when white space is dropped. -/
theorem squeeze_of_gap (blank : gap.all isWhiteSpace = true) : squeeze gap = [] := by
  simpa [squeeze] using blank

/-- Squeezing a text leaves what it leaves of the trimmed text. -/
theorem squeeze_trim (text : List Char) : squeeze (trim text) = squeeze text := by
  obtain ⟨before, after, blank, blankAfter, split⟩ := exists_gaps text
  have whole : squeeze (before ++ (trim text ++ after)) =
      squeeze before ++ (squeeze (trim text) ++ squeeze after) := by
    simp only [squeeze, List.filter_append]
  rw [squeeze_of_gap blank, squeeze_of_gap blankAfter, List.nil_append, List.append_nil,
    ← split] at whole
  exact whole.symm

end BuildMatrix.Text
