import Mathlib.Data.List.Basic

/-!
# Laws of splitting and joining

A text has exactly one way of being split at a separator. Splitting commutes with joining: the
pieces of joined parts are the pieces of every part in turn, whether or not the parts hold
separators themselves.
-/

namespace BuildMatrix.Text

variable {separator c : Char} {text field first second third : List Char}
  {parts others : List (List Char)}

/-- No field holds the separator. -/
theorem not_mem_of_mem_splitOn (member : field ∈ List.splitOn separator text) :
    separator ∉ field := by
  induction text generalizing field with
  | nil =>
    obtain rfl : field = [] := by simpa using member
    exact List.not_mem_nil
  | cons first rest ih =>
    rw [List.splitOn_cons_eq_if_modifyHead] at member
    split at member
    · rcases List.mem_cons.1 member with rfl | tail
      · exact List.not_mem_nil
      · exact ih tail
    · next different =>
      obtain ⟨head, tail, parts⟩ := List.exists_cons_of_ne_nil (List.splitOn_ne_nil separator rest)
      rw [parts, List.modifyHead_cons] at member
      rcases List.mem_cons.1 member with rfl | later
      · have clean : separator ∉ head := ih (by simp [parts])
        have apart : separator ≠ first := fun same => different (by simp [same])
        exact List.not_mem_cons_of_ne_of_not_mem apart clean
      · exact ih (by simp [parts, later])

/-- The fields of a text are the only parts without the separator that it is joined from. -/
theorem splitOn_eq_iff :
    List.splitOn separator text = parts ↔
      parts ≠ [] ∧ [separator].intercalate parts = text ∧ ∀ part ∈ parts, separator ∉ part := by
  constructor
  · rintro rfl
    exact ⟨List.splitOn_ne_nil separator text, List.intercalate_splitOn separator,
      fun part member => not_mem_of_mem_splitOn member⟩
  · rintro ⟨some, rfl, absent⟩
    exact List.splitOn_intercalate separator absent some

/-- A text has two fields when it holds one separator between them. -/
theorem splitOn_eq_pair_iff :
    List.splitOn separator text = [first, second] ↔
      text = first ++ separator :: second ∧ separator ∉ first ∧ separator ∉ second := by
  simp [splitOn_eq_iff, eq_comm (b := text)]

/-- A text has three fields when it holds two separators between them. -/
theorem splitOn_eq_triple_iff :
    List.splitOn separator text = [first, second, third] ↔
      text = first ++ separator :: second ++ separator :: third ∧
        separator ∉ first ∧ separator ∉ second ∧ separator ∉ third := by
  simp [splitOn_eq_iff, eq_comm (b := text)]

/-- Joined parts hold all that a part holds. -/
theorem subset_intercalate {part : List Char} (member : part ∈ parts) :
    part ⊆ [separator].intercalate parts := by
  induction parts with
  | nil => exact absurd member List.not_mem_nil
  | cons first others ih =>
    cases others with
    | nil =>
      obtain rfl := List.mem_singleton.1 member
      rw [List.intercalate_singleton]
      exact List.Subset.refl part
    | cons next more =>
      rw [List.intercalate_cons_cons]
      rcases List.mem_cons.1 member with rfl | later
      · rw [List.append_assoc]
        exact List.subset_append_left part _
      · exact List.subset_append_of_subset_right _ (ih later)

/-- The characters of a field are characters of the text. -/
theorem subset_of_mem_splitOn (member : field ∈ List.splitOn separator text) : field ⊆ text := by
  have joined : field ⊆ [separator].intercalate (List.splitOn separator text) :=
    subset_intercalate member
  rwa [List.intercalate_splitOn] at joined

/-- The fields of joined parts are those of every part in turn. -/
theorem splitOn_intercalate_flatMap (some : parts ≠ []) :
    List.splitOn separator ([separator].intercalate parts) =
      parts.flatMap (List.splitOn separator) := by
  induction parts with
  | nil => exact absurd rfl some
  | cons part others ih =>
    cases others with
    | nil => simp
    | cons next more =>
      rw [List.intercalate_cons_cons, List.append_assoc, List.singleton_append,
        List.splitOn_append_cons_self, ih (by simp), List.flatMap_cons (x := part)]

/-- Two lists of parts are joined by joining each of them. -/
theorem intercalate_append (some : parts ≠ []) (more : others ≠ []) :
    [separator].intercalate (parts ++ others) =
      [separator].intercalate parts ++ separator :: [separator].intercalate others := by
  induction parts with
  | nil => exact absurd rfl some
  | cons part rest ih =>
    cases rest with
    | nil => simp [List.intercalate_cons_of_ne_nil more]
    | cons next last =>
      rw [List.cons_append, List.cons_append, List.intercalate_cons_cons, ← List.cons_append,
        ih (by simp), List.intercalate_cons_cons, List.append_assoc (part ++ [separator])]

/-- Joined parts hold nothing but the separator and what the parts hold. -/
theorem mem_intercalate (member : c ∈ [separator].intercalate parts) :
    c = separator ∨ ∃ part ∈ parts, c ∈ part := by
  induction parts with
  | nil => simp at member
  | cons part others ih =>
    cases others with
    | nil =>
      rw [List.intercalate_singleton] at member
      exact .inr ⟨part, by simp, member⟩
    | cons next more =>
      rw [List.intercalate_cons_cons, List.append_assoc, List.singleton_append, List.mem_append,
        List.mem_cons] at member
      rcases member with here | same | later
      · exact .inr ⟨part, by simp, here⟩
      · exact .inl same
      · rcases ih later with same | ⟨found, within, holds⟩
        · exact .inl same
        · exact .inr ⟨found, List.mem_cons_of_mem part within, holds⟩

/-- Characters that are dropped from a text are dropped from its fields, as long as the separator is
none of them. -/
theorem splitOn_filter {keep : Char → Bool} (kept : keep separator = true) (text : List Char) :
    List.splitOn separator (text.filter keep) =
      (List.splitOn separator text).map (List.filter keep) := by
  induction text with
  | nil => rfl
  | cons first rest ih =>
    obtain ⟨head, tail, parts⟩ := List.exists_cons_of_ne_nil (List.splitOn_ne_nil separator rest)
    rw [parts] at ih
    rw [List.splitOn_cons_eq_if_modifyHead, parts]
    split
    · next same =>
      obtain rfl : first = separator := by simpa using same
      rw [List.filter_cons_of_pos kept, List.splitOn_cons_eq_if_modifyHead, ih]
      simp
    · next different =>
      by_cases holds : keep first = true
      · rw [List.filter_cons_of_pos holds, List.splitOn_cons_eq_if_modifyHead, ih]
        simp [different, holds]
      · rw [List.filter_cons_of_neg holds, ih]
        simp [holds]

end BuildMatrix.Text
