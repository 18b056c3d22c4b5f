import BuildMatrix.Proofs.Text.Fields
import BuildMatrix.Proofs.Text.WhiteSpace
import BuildMatrix.Resolution.Declaration
import Mathlib.Logic.Relation

/-!
# Layout and comments

A manifest text may be laid out in many ways: with idle lines between its lines, with white space
around them, with carriage returns in front of its newlines, with or without a newline at its end.
None of these changes an active line, and every reading of a manifest text is a reading of its
active lines.
-/

namespace BuildMatrix.Manifest

/-! ## Edits of the layout -/

/-- A line that declares nothing. A carriage return at its end is white space or part of the
comment. -/
inductive Idle : List Char → Prop
  /-- Nothing, or white space only. -/
  | blank {line : List Char} (white : line.all Text.isWhiteSpace = true) (single : '\n' ∉ line) :
      Idle line
  /-- A comment, white space before it allowed. -/
  | comment {gap rest : List Char} (white : gap.all Text.isWhiteSpace = true)
      (single : '\n' ∉ gap ++ '#' :: rest) : Idle (gap ++ '#' :: rest)

/-- What follows is at the start of a line. -/
def StartsLine (before : List Char) : Prop :=
  before = [] ∨ ∃ lines, before = lines ++ ['\n']

/-- What precedes is at the end of a line. -/
def EndsLine (after : List Char) : Prop :=
  after = [] ∨ (∃ lines, after = '\n' :: lines) ∨ ∃ lines, after = '\r' :: '\n' :: lines

/-- A carriage return in front of every newline. -/
def withCarriageReturns (text : List Char) : List Char :=
  text.flatMap fun c => if c = '\n' then ['\r', '\n'] else [c]

/-- One change to the layout of a text. -/
inductive LayoutEdit : List Char → List Char → Prop
  /-- An idle line in front of the first line, between two lines or behind a last line that has
  an end. -/
  | line (before after : List Char) {idle : List Char} (boundary : StartsLine before)
      (declaresNothing : Idle idle) :
      LayoutEdit (before ++ after) (before ++ (idle ++ '\n' :: after))
  /-- An idle line behind a last line that has no end of its own. -/
  | lastLine (text : List Char) {idle : List Char} (declaresNothing : Idle idle) :
      LayoutEdit text (text ++ '\n' :: idle)
  /-- White space at the start of a line. -/
  | indent (before after : List Char) {gap : List Char} (boundary : StartsLine before)
      (white : gap.all Text.isWhiteSpace = true) (single : '\n' ∉ gap) :
      LayoutEdit (before ++ after) (before ++ (gap ++ after))
  /-- White space at the end of a line. -/
  | trail (before after : List Char) {gap : List Char} (boundary : EndsLine after)
      (white : gap.all Text.isWhiteSpace = true) (single : '\n' ∉ gap) :
      LayoutEdit (before ++ after) (before ++ (gap ++ after))
  /-- Carriage returns throughout. -/
  | carriageReturns (text : List Char) : LayoutEdit text (withCarriageReturns text)
  /-- A newline at the end. -/
  | finalNewline (text : List Char) : LayoutEdit text (text ++ ['\n'])

/-! ## Active lines -/

/-- The active lines of a text are those before any newline of it and those behind. -/
theorem activeLines_append (first rest : List Char) :
    activeLines (first ++ '\n' :: rest) = activeLines first ++ activeLines rest := by
  simp [activeLines, List.splitOn_append_cons_self]

/-- An empty text has no active lines. -/
@[simp]
theorem activeLines_nil : activeLines [] = [] := rfl

/-- A text without line breaks is its only line, if that is active. -/
theorem activeLines_of_single {line : List Char} (single : '\n' ∉ line) :
    activeLines line = [Text.trim line].filter isActive := by
  rw [activeLines, List.splitOn_eq_singleton single]
  rfl

/-- What declares nothing has no active lines. -/
theorem activeLines_of_idle {idle : List Char} (declaresNothing : Idle idle) :
    activeLines idle = [] := by
  cases declaresNothing with
  | blank white single =>
    rw [activeLines_of_single single, Text.trim_of_gap white]
    rfl
  | comment white single =>
    rw [activeLines_of_single single, Text.trim_gap_append white, Text.trim_cons (by decide)]
    rfl

/-- White space in front of a text goes to its first line. -/
theorem activeLines_gap_append {gap : List Char} (white : gap.all Text.isWhiteSpace = true)
    (single : '\n' ∉ gap) (text : List Char) : activeLines (gap ++ text) = activeLines text := by
  have alone : ∀ line, '\n' ∉ line → activeLines (gap ++ line) = activeLines line := by
    intro line plain
    have both : '\n' ∉ gap ++ line := by simp [single, plain]
    rw [activeLines_of_single both, activeLines_of_single plain, Text.trim_gap_append white]
  by_cases newline : '\n' ∈ text
  · obtain ⟨line, rest, rfl, plain⟩ := List.eq_append_cons_of_mem newline
    rw [← List.append_assoc, activeLines_append, activeLines_append, alone line plain]
  · exact alone text newline

/-- White space behind a text goes to its last line. -/
theorem activeLines_append_gap {gap : List Char} (white : gap.all Text.isWhiteSpace = true)
    (single : '\n' ∉ gap) (text : List Char) : activeLines (text ++ gap) = activeLines text := by
  have alone : ∀ line, '\n' ∉ line → activeLines (line ++ gap) = activeLines line := by
    intro line plain
    have both : '\n' ∉ line ++ gap := by simp [single, plain]
    rw [activeLines_of_single both, activeLines_of_single plain, Text.trim_append_gap white]
  -- The last newline is the first one of the reversed text.
  by_cases newline : '\n' ∈ text.reverse
  · obtain ⟨line, lines, split, plain⟩ := List.eq_append_cons_of_mem newline
    have parts : text = lines.reverse ++ '\n' :: line.reverse := by
      rw [← List.reverse_reverse text, split]
      simp
    rw [parts, List.append_assoc, List.cons_append, activeLines_append, activeLines_append,
      alone line.reverse (by simpa using plain)]
  · exact alone text (by simpa using newline)

/-- A carriage return in front of a newline goes to the line that it ends. -/
theorem activeLines_append_carriageReturn (first rest : List Char) :
    activeLines (first ++ '\r' :: '\n' :: rest) = activeLines first ++ activeLines rest := by
  have carriage : activeLines (first ++ ['\r']) = activeLines first :=
    activeLines_append_gap (by decide) (by decide) first
  have split : first ++ '\r' :: '\n' :: rest = (first ++ ['\r']) ++ '\n' :: rest := by simp
  rw [split, activeLines_append, carriage]

/-- Where a line starts, the active lines are those before and then those after. -/
theorem activeLines_startsLine {before : List Char} (boundary : StartsLine before)
    (after : List Char) :
    activeLines (before ++ after) = activeLines before ++ activeLines after := by
  rcases boundary with rfl | ⟨lines, rfl⟩
  · rfl
  · rw [List.append_assoc, List.singleton_append, activeLines_append, activeLines_append,
      activeLines_nil, List.append_nil]

/-- Where a line ends, the active lines are those before and then those after. -/
theorem activeLines_endsLine {after : List Char} (boundary : EndsLine after)
    (before : List Char) :
    activeLines (before ++ after) = activeLines before ++ activeLines after := by
  rcases boundary with rfl | ⟨lines, rfl⟩ | ⟨lines, rfl⟩
  · rw [List.append_nil, activeLines_nil, List.append_nil]
  · have behind : activeLines ('\n' :: lines) = activeLines lines := activeLines_append [] lines
    rw [activeLines_append, behind]
  · have behind : activeLines ('\r' :: '\n' :: lines) = activeLines lines :=
      activeLines_append_carriageReturn [] lines
    rw [activeLines_append_carriageReturn, behind]

/-- Carriage returns in front of newlines are white space at the ends of lines. -/
theorem activeLines_withCarriageReturns (text : List Char) :
    activeLines (withCarriageReturns text) = activeLines text := by
  -- What has been read of the current line is kept in front.
  suffices running : ∀ line, activeLines (line ++ withCarriageReturns text) =
      activeLines (line ++ text) from running []
  induction text with
  | nil => exact fun line => rfl
  | cons c rest ih =>
    intro line
    by_cases newline : c = '\n'
    · subst newline
      have split : withCarriageReturns ('\n' :: rest) =
          '\r' :: '\n' :: withCarriageReturns rest := by
        simp [withCarriageReturns]
      have behind : activeLines (withCarriageReturns rest) = activeLines rest := ih []
      rw [split, activeLines_append_carriageReturn, behind, activeLines_append]
    · have split : line ++ withCarriageReturns (c :: rest) =
          (line ++ [c]) ++ withCarriageReturns rest := by
        simp [withCarriageReturns, newline]
      have joined : line ++ c :: rest = (line ++ [c]) ++ rest := by simp
      rw [split, joined, ih (line ++ [c])]

/-- A change to the layout leaves the active lines as they are. -/
theorem activeLines_of_layoutEdit {before after : List Char} (edit : LayoutEdit before after) :
    activeLines before = activeLines after := by
  cases edit with
  | line before after boundary declaresNothing =>
    rw [activeLines_startsLine boundary, activeLines_startsLine boundary, activeLines_append,
      activeLines_of_idle declaresNothing, List.nil_append]
  | lastLine _ declaresNothing =>
    rw [activeLines_append, activeLines_of_idle declaresNothing, List.append_nil]
  | indent before after boundary white single =>
    rw [activeLines_startsLine boundary, activeLines_startsLine boundary,
      activeLines_gap_append white single]
  | trail before after boundary white single =>
    rw [← List.append_assoc, activeLines_endsLine boundary, activeLines_endsLine boundary,
      activeLines_append_gap white single]
  | carriageReturns => exact (activeLines_withCarriageReturns before).symm
  | finalNewline => rw [activeLines_append, activeLines_nil, List.append_nil]

/-- So do any number of changes, made or taken back. -/
theorem activeLines_of_relaid {before after : List Char}
    (relaid : Relation.EqvGen LayoutEdit before after) :
    activeLines before = activeLines after := by
  induction relaid with
  | rel before after edit => exact activeLines_of_layoutEdit edit
  | refl text => rfl
  | symm before after _ ih => exact ih.symm
  | trans first second third _ _ left right => exact left.trans right

/-! ## Readings -/

/-- Texts with the same active lines declare the same constraint. -/
theorem constraint?_congr {before after : String}
    (same : activeLines before.toList = activeLines after.toList) :
    constraint? before = constraint? after := by
  unfold constraint? requiresPython? poetryPython?
  rw [same]

/-- Texts with the same active lines list the same versions. -/
theorem classifiers_congr {before after : String}
    (same : activeLines before.toList = activeLines after.toList) :
    classifiers before = classifiers after := by
  rw [classifiers, classifiers, same]

/-- A manifest text reads the same however it is laid out and whatever its comments: so do both
values, the constraint, the classifiers, and what the text comes to against any candidates. -/
theorem readings_of_relaid (before after : String)
    (relaid : Relation.EqvGen LayoutEdit before.toList after.toList) :
    requiresPython? before = requiresPython? after ∧
    poetryPython? before = poetryPython? after ∧
    constraint? before = constraint? after ∧
    classifiers before = classifiers after ∧
    ∀ path candidates, Resolution.ofDeclaration before path candidates =
      Resolution.ofDeclaration after path candidates := by
  have same : activeLines before.toList = activeLines after.toList := activeLines_of_relaid relaid
  have declared : constraint? before = constraint? after := constraint?_congr same
  have listed : classifiers before = classifiers after := classifiers_congr same
  refine ⟨by rw [requiresPython?, requiresPython?, same],
    by rw [poetryPython?, poetryPython?, same], declared, listed, fun path candidates => ?_⟩
  have fallback : Resolution.byClassifiers before path candidates =
      Resolution.byClassifiers after path candidates := by
    unfold Resolution.byClassifiers Resolution.classified
    rw [listed]
  unfold Resolution.ofDeclaration
  rw [declared, fallback]

/-- A comment above, white space around and carriage returns leave a declaration as it is. -/
theorem readings_of_relaid_of_comment :
    Relation.EqvGen LayoutEdit "requires-python = '>=3.9'".toList
      "# note\r\n\trequires-python = '>=3.9' \r\n".toList ∧
    requiresPython? "requires-python = '>=3.9'" =
      requiresPython? "# note\r\n\trequires-python = '>=3.9' \r\n" := by
  let line := "requires-python = '>=3.9'".toList
  let head := "# note\n".toList
  have idle : Idle "# note".toList := @Idle.comment [] " note".toList rfl (by decide)
  have noted : LayoutEdit line (head ++ line) := .line [] line (.inl rfl) idle
  have indented : LayoutEdit (head ++ line) (head ++ (['\t'] ++ line)) :=
    .indent head line (.inr ⟨"# note".toList, rfl⟩) rfl (by decide)
  have ended : LayoutEdit (head ++ (['\t'] ++ line)) (head ++ (['\t'] ++ line) ++ ['\n']) :=
    .finalNewline _
  have padded : LayoutEdit (head ++ (['\t'] ++ line) ++ ['\n'])
      (head ++ (['\t'] ++ line) ++ ([' '] ++ ['\n'])) :=
    .trail _ ['\n'] (.inr (.inl ⟨[], rfl⟩)) rfl (by decide)
  have relaid : Relation.EqvGen LayoutEdit "requires-python = '>=3.9'".toList
      "# note\r\n\trequires-python = '>=3.9' \r\n".toList := by
    refine .trans _ _ _ (.rel _ _ noted) ?_
    refine .trans _ _ _ (.rel _ _ indented) ?_
    refine .trans _ _ _ (.rel _ _ ended) ?_
    refine .trans _ _ _ (.rel _ _ padded) ?_
    exact .rel _ _ (.carriageReturns _)
  exact ⟨relaid, (readings_of_relaid _ _ relaid).1⟩

end BuildMatrix.Manifest
