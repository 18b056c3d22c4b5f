import BuildMatrix.Proofs.Manifest.Line
import BuildMatrix.Proofs.Text.Literal
import Mathlib.Data.List.TakeWhile

/-!
# Where a constraint is declared

A line assigns a value to a key when it is the key, an equals sign with any white space around it
and the value between two quotes of one kind; whatever follows does not matter. The value of a
manifest text is that of the first line that assigns one which is not blank: of all its lines for
the project key, and for the Poetry key of the lines between the header of the dependency table and
the next table. What stands outside these lines has no part in it.
-/

namespace BuildMatrix.Manifest

/-! ## Assignments -/

/-- A line assigns a value to a key. The value is what trimming leaves of the quoted body, and
something is left. -/
def Assigns (key line value : List Char) : Prop :=
  ∃ (before after : List Char) (quote : Char) (body rest : List Char),
    before.all Text.isWhiteSpace = true ∧ after.all Text.isWhiteSpace = true ∧
    (quote = '"' ∨ quote = '\'') ∧ quote ∉ body ∧
    line = key ++ (before ++ '=' :: (after ++ quote :: (body ++ quote :: rest))) ∧
    Text.trim body = value ∧ value ≠ []

/-- The first of some lines that assigns a value to a key assigns this one. -/
def FirstAssigns (key : List Char) (lines : List (List Char)) (value : List Char) : Prop :=
  ∃ earlier line later, lines = earlier ++ line :: later ∧ Assigns key line value ∧
    ∀ other ∈ earlier, ∀ another, ¬ Assigns key other another

variable {key line value body text : List Char} {lines : List (List Char)}

/-- A body ends in front of the first quote of its kind. -/
theorem takeWhile_body {quote : Char} (free : quote ∉ body) (rest : List Char) :
    (body ++ quote :: rest).takeWhile (· ≠ quote) = body := by
  have inside : ∀ c ∈ body, decide (c ≠ quote) = true := by
    intro c member
    exact decide_eq_true fun same => free (same ▸ member)
  exact Text.takeWhile_run inside (by simp) rest

/-- A quoted value stands between a quote and the next one of its kind. -/
theorem quoted?_eq_some_iff :
    quoted? text = some body ↔
      ∃ quote rest, isQuote quote = true ∧ quote ∉ body ∧
        text = quote :: (body ++ quote :: rest) := by
  constructor
  · intro read
    cases text with
    | nil => exact nomatch read
    | cons quote text =>
      rw [quoted?] at read
      split at read
      · next found =>
        obtain ⟨opens, closes⟩ := Bool.and_eq_true_iff.1 found
        have member : quote ∈ text := List.contains_iff_mem.1 closes
        obtain ⟨front, rest, rfl, free⟩ := List.eq_append_cons_of_mem member
        rw [takeWhile_body free] at read
        obtain rfl := Option.some.inj read
        exact ⟨quote, rest, opens, free, rfl⟩
      · exact nomatch read
  · rintro ⟨quote, rest, opens, free, rfl⟩
    have found : (isQuote quote && (body ++ quote :: rest).contains quote) = true := by
      simp [opens]
    rw [quoted?, if_pos found, takeWhile_body free]

/-- The reader of a line finds exactly what the line assigns. -/
theorem assigned?_eq_some_iff : assigned? key line = some value ↔ Assigns key line value := by
  constructor
  · intro found
    obtain ⟨afterKey, named, found⟩ := Option.bind_eq_some_iff.1 found
    obtain ⟨afterSign, sign, found⟩ := Option.bind_eq_some_iff.1 found
    obtain ⟨body, quoted, found⟩ := Option.bind_eq_some_iff.1 found
    obtain ⟨before, blank, split⟩ := Text.exists_gap_of_after? sign
    obtain ⟨after, blankAfter, behind⟩ := Text.exists_gap afterSign
    obtain ⟨quote, rest, opens, free, enclosed⟩ := quoted?_eq_some_iff.1 quoted
    split at found
    · exact nomatch found
    · next filled =>
      obtain rfl := Option.some.inj found
      refine ⟨before, after, quote, body, rest, blank, blankAfter, isQuote_iff.1 opens, free, ?_,
        rfl, mt List.isEmpty_iff.2 filled⟩
      rw [Text.after?_eq_some_iff.1 named, split, behind, enclosed]
      rfl
  · rintro ⟨before, after, quote, body, rest, blank, blankAfter, either, free, rfl, rfl, filled⟩
    have opens : isQuote quote = true := isQuote_iff.2 either
    have sign : Text.after? ['='] (Text.trimStart
        (before ++ '=' :: (after ++ quote :: (body ++ quote :: rest)))) =
          some (after ++ quote :: (body ++ quote :: rest)) :=
      Text.after?_trimStart_gap blank rfl (by decide) _
    have value : Text.trimStart (after ++ quote :: (body ++ quote :: rest)) =
        quote :: (body ++ quote :: rest) :=
      Text.trimStart_gap_append blankAfter rfl (isWhiteSpace_of_isQuote opens)
    have quoted := quoted?_eq_some_iff.2 ⟨quote, rest, opens, free, rfl⟩
    have some : ¬ (Text.trim body).isEmpty = true := mt List.isEmpty_iff.1 filled
    simp only [assigned?, Text.after?_append, Option.bind_some, sign, value, quoted, if_neg some]

/-- No value is read from a line exactly when it assigns none to the key. -/
theorem assigned?_eq_none_iff :
    assigned? key line = none ↔ ∀ value, ¬ Assigns key line value := by
  rw [Option.eq_none_iff_forall_ne_some]
  exact forall_congr' fun value => not_congr assigned?_eq_some_iff

/-- The value found on some lines is that of the first line that assigns one. -/
theorem findSome?_assigned?_eq_some_iff :
    lines.findSome? (assigned? key) = some value ↔ FirstAssigns key lines value := by
  simp only [List.findSome?_eq_some_iff, assigned?_eq_some_iff, assigned?_eq_none_iff,
    FirstAssigns]

/-- No value is found exactly when no line assigns one to the key. -/
theorem findSome?_assigned?_eq_none_iff :
    lines.findSome? (assigned? key) = none ↔
      ∀ line ∈ lines, ∀ value, ¬ Assigns key line value := by
  simp only [List.findSome?_eq_none_iff, assigned?_eq_none_iff]

/-- The text of what is found on some lines is a value exactly when its characters are. -/
theorem map_ofList_eq_some_iff {found : Option (List Char)} {value : String} :
    found.map String.ofList = some value ↔ found = some value.toList := by
  constructor
  · intro same
    obtain ⟨chars, rfl, rfl⟩ := Option.map_eq_some_iff.1 same
    rw [String.toList_ofList]
  · rintro rfl
    rw [Option.map_some, String.ofList_toList]

/-! ## The project key -/

/-- The project constraint of a manifest text is the value of the first active line that assigns one
to the project key, and there is none exactly when no active line does. The active lines are the
trimmed lines that are neither empty nor comments, and a line ends at a newline, with or without a
carriage return in front of it. -/
theorem requiresPython?_grammar (content : String) :
    (∃ lines, Lines content.toList lines ∧
      activeLines content.toList =
        (lines.map Text.trim).filter fun line => line ≠ [] ∧ line.head? ≠ some '#') ∧
    (∀ value : String, requiresPython? content = some value ↔
      FirstAssigns "requires-python".toList (activeLines content.toList) value.toList) ∧
    (requiresPython? content = none ↔
      ∀ line ∈ activeLines content.toList, ∀ value,
        ¬ Assigns "requires-python".toList line value) := by
  refine ⟨?_, fun value => ?_, ?_⟩
  · obtain ⟨lines, split⟩ := exists_lines content.toList
    exact ⟨lines, split, activeLines_of_lines split⟩
  · rw [requiresPython?, map_ofList_eq_some_iff]
    exact findSome?_assigned?_eq_some_iff
  · rw [requiresPython?, Option.map_eq_none_iff]
    exact findSome?_assigned?_eq_none_iff

/-! ## The Poetry key -/

/-- A line opens the Poetry dependency table: its name in brackets, any white space around it and
behind, and then nothing more or a comment. -/
def OpensPoetryTable (line : List Char) : Prop :=
  ∃ first second third rest : List Char,
    first.all Text.isWhiteSpace = true ∧ second.all Text.isWhiteSpace = true ∧
    third.all Text.isWhiteSpace = true ∧
    line = '[' :: (first ++ ("tool.poetry.dependencies".toList ++
      (second ++ ']' :: (third ++ rest)))) ∧
    (rest = [] ∨ ∃ comment, rest = '#' :: comment)

/-- The lines between the first header of the Poetry dependency table and the next table, or the end
of the lines. -/
def Spans (lines span : List (List Char)) : Prop :=
  ∃ before header after, lines = before ++ header :: (span ++ after) ∧
    (∀ line ∈ before, ¬ OpensPoetryTable line) ∧ OpensPoetryTable header ∧
    (∀ line ∈ span, line.head? ≠ some '[') ∧
    ∀ next ∈ after.head?, next.head? = some '['

/-- Nothing or a comment is left behind white space. -/
theorem trimStart_comment_iff :
    ((Text.trimStart text).isEmpty || (Text.trimStart text).head? = some '#') = true ↔
      ∃ gap rest, gap.all Text.isWhiteSpace = true ∧ text = gap ++ rest ∧
        (rest = [] ∨ ∃ comment, rest = '#' :: comment) := by
  simp only [Bool.or_eq_true, List.isEmpty_iff, decide_eq_true_eq, List.head?_eq_some_iff]
  constructor
  · intro ended
    obtain ⟨gap, blank, split⟩ := Text.exists_gap text
    exact ⟨gap, Text.trimStart text, blank, split, ended⟩
  · rintro ⟨gap, rest, blank, rfl, rfl | ⟨comment, rfl⟩⟩
    · left
      rw [List.append_nil, Text.trimStart_of_gap blank]
    · right
      exact ⟨comment, Text.trimStart_gap_append blank rfl (by decide)⟩

/-- The test for a table of the tool accepts exactly the lines that open one. -/
theorem opensPoetryTable_iff : opensPoetryTable line = true ↔ OpensPoetryTable line := by
  constructor
  · intro opens
    rw [opensPoetryTable] at opens
    split at opens
    · exact nomatch opens
    · next behind read =>
      obtain ⟨inside, bracket, read⟩ := Option.bind_eq_some_iff.1 read
      obtain ⟨afterName, named, closing⟩ := Option.bind_eq_some_iff.1 read
      obtain ⟨first, blank, toName⟩ := Text.exists_gap_of_after? named
      obtain ⟨second, blankAfter, toBracket⟩ := Text.exists_gap_of_after? closing
      obtain ⟨third, rest, blankBehind, toEnd, ended⟩ := trimStart_comment_iff.1 opens
      refine ⟨first, second, third, rest, blank, blankAfter, blankBehind, ?_, ended⟩
      rw [Text.after?_eq_some_iff.1 bracket, toName, toBracket, toEnd]
      rfl
  · rintro ⟨first, second, third, rest, blank, blankAfter, blankBehind, rfl, ended⟩
    have bracket : Text.after? ['['] ('[' :: (first ++ (poetryTable ++
        (second ++ ']' :: (third ++ rest))))) =
          some (first ++ (poetryTable ++ (second ++ ']' :: (third ++ rest)))) :=
      Text.after?_append ['['] _
    have named : Text.after? poetryTable (Text.trimStart (first ++ (poetryTable ++
        (second ++ ']' :: (third ++ rest))))) = some (second ++ ']' :: (third ++ rest)) :=
      Text.after?_trimStart_gap blank rfl (by decide) _
    have closing : Text.after? [']'] (Text.trimStart (second ++ ']' :: (third ++ rest))) =
        some (third ++ rest) :=
      Text.after?_trimStart_gap blankAfter rfl (by decide) _
    show opensPoetryTable ('[' :: (first ++ (poetryTable ++
      (second ++ ']' :: (third ++ rest))))) = true
    simp only [opensPoetryTable, bracket, named, closing, Option.bind_some]
    exact trimStart_comment_iff.2 ⟨third, rest, blankBehind, rfl, ended⟩

/-- The lines taken for the table are those that its header and the next table enclose. -/
theorem poetryLines_of_spans {span : List (List Char)} (spans : Spans lines span) :
    poetryLines lines = span := by
  obtain ⟨before, header, after, rfl, none, opens, inside, next⟩ := spans
  have skipped : ∀ line ∈ before, (!opensPoetryTable line) = true := by
    intro line member
    rw [Bool.not_eq_true', ← Bool.not_eq_true, opensPoetryTable_iff]
    exact none line member
  have found : (before ++ header :: (span ++ after)).dropWhile (fun line =>
      !opensPoetryTable line) = header :: (span ++ after) := by
    rw [List.dropWhile_append_of_pos skipped]
    simp [opensPoetryTable_iff.2 opens]
  have within : ∀ line ∈ span, (!opensTable line) = true := by
    intro line member
    simpa [opensTable] using inside line member
  have ended : after.takeWhile (fun line => !opensTable line) = [] := by
    cases after with
    | nil => rfl
    | cons first others => simp [opensTable, next first rfl]
  rw [poetryLines, found, List.drop_one, List.tail_cons, List.takeWhile_append_of_pos within, ended,
    List.append_nil]

/-- Lines divide in front of the first one that passes a test. -/
theorem exists_break (test : List Char → Bool) (lines : List (List Char)) :
    ∃ before after, lines = before ++ after ∧ (∀ line ∈ before, test line = false) ∧
      ∀ next ∈ after.head?, test next = true := by
  refine ⟨lines.takeWhile fun line => !test line, lines.dropWhile fun line => !test line,
    List.takeWhile_append_dropWhile.symm, fun line member => ?_, fun next member => ?_⟩
  · have passed := List.all_eq_true.1 List.all_takeWhile line member
    simpa using passed
  · have stopped := List.head?_dropWhile_not (fun line => !test line) lines
    rw [Option.mem_def.1 member] at stopped
    simpa using stopped

/-- The lines taken for the table are enclosed by its header and the next table, unless there is no
header; then there are none. -/
theorem spans_poetryLines (lines : List (List Char)) :
    Spans lines (poetryLines lines) ∨
      poetryLines lines = [] ∧ ∀ span, ¬ Spans lines span := by
  obtain ⟨before, headed, rfl, none, first⟩ := exists_break opensPoetryTable lines
  have unopened : ∀ line ∈ before, ¬ OpensPoetryTable line := by
    intro line member
    rw [← opensPoetryTable_iff, none line member]
    exact Bool.false_ne_true
  cases headed with
  | nil =>
    right
    have skipped : ∀ line ∈ before, (!opensPoetryTable line) = true := by
      intro line member
      rw [none line member]
      rfl
    rw [List.append_nil]
    constructor
    · rw [poetryLines, List.dropWhile_eq_nil_iff.2 skipped]
      rfl
    · rintro span ⟨earlier, header, after, rfl, -, opens, -⟩
      exact unopened header (by simp) opens
  | cons header rest =>
    left
    have opens : OpensPoetryTable header := opensPoetryTable_iff.1 (first header rfl)
    obtain ⟨span, after, rfl, inside, next⟩ := exists_break opensTable rest
    have enclosed : ∀ line ∈ span, line.head? ≠ some '[' := by
      intro line member
      simpa [opensTable] using inside line member
    have ended : ∀ line ∈ after.head?, line.head? = some '[' := by
      intro line member
      simpa [opensTable] using next line member
    have spans : Spans (before ++ header :: (span ++ after)) span :=
      ⟨before, header, after, rfl, unopened, opens, enclosed, ended⟩
    rw [poetryLines_of_spans spans]
    exact spans

/-- What is found on the lines taken for the table is what the enclosed lines assign first. -/
theorem findSome?_poetryLines_eq_some_iff :
    (poetryLines lines).findSome? (assigned? key) = some value ↔
      ∃ span, Spans lines span ∧ FirstAssigns key span value := by
  rw [findSome?_assigned?_eq_some_iff]
  rcases spans_poetryLines lines with spans | ⟨nothing, unopened⟩
  · constructor
    · intro first
      exact ⟨poetryLines lines, spans, first⟩
    · rintro ⟨span, enclosed, first⟩
      rwa [poetryLines_of_spans enclosed]
  · constructor
    · rintro ⟨earlier, line, later, split, -⟩
      rw [nothing] at split
      simp at split
    · rintro ⟨span, enclosed, -⟩
      exact absurd enclosed (unopened span)

/-- Nothing is found exactly when the enclosed lines assign nothing. -/
theorem findSome?_poetryLines_eq_none_iff :
    (poetryLines lines).findSome? (assigned? key) = none ↔
      ∀ span, Spans lines span → ∀ line ∈ span, ∀ value, ¬ Assigns key line value := by
  rw [findSome?_assigned?_eq_none_iff]
  rcases spans_poetryLines lines with spans | ⟨nothing, unopened⟩
  · constructor
    · intro none span enclosed
      rwa [poetryLines_of_spans enclosed] at none
    · intro none
      exact none _ spans
  · rw [nothing]
    constructor
    · intro _ span enclosed
      exact absurd enclosed (unopened span)
    · exact fun _ line member => nomatch member

/-- The Poetry constraint is in charge exactly where there is no project constraint. -/
theorem requiresPython?_eq_none_iff {content : String} :
    requiresPython? content = none ↔
      constraint? content =
        (poetryPython? content).map fun expression => ⟨expression, .poetryDependency⟩ := by
  unfold constraint?
  constructor
  · intro missing
    rw [missing]
  · intro same
    cases found : requiresPython? content with
    | none => rfl
    | some expression =>
      rw [found] at same
      obtain ⟨other, -, keys⟩ := Option.map_eq_some_iff.1 same.symm
      exact nomatch keys

/-- The Poetry constraint of a manifest text is the value of the first line that assigns one to the
interpreter's key between the first header of the dependency table and the next table, and there is
none exactly when no such line does. So texts with the same lines there agree on it, whatever stands
in front of the header and behind the table. It is the constraint of the text exactly where there is
no project constraint. -/
theorem poetryPython?_confined (content : String) :
    (∀ value : String, poetryPython? content = some value ↔
      ∃ span, Spans (activeLines content.toList) span ∧
        FirstAssigns "python".toList span value.toList) ∧
    (poetryPython? content = none ↔
      ∀ span, Spans (activeLines content.toList) span →
        ∀ line ∈ span, ∀ value, ¬ Assigns "python".toList line value) ∧
    (∀ other span, Spans (activeLines content.toList) span →
      Spans (activeLines other.toList) span → poetryPython? other = poetryPython? content) ∧
    (requiresPython? content = none ↔
      constraint? content =
        (poetryPython? content).map fun expression => ⟨expression, .poetryDependency⟩) := by
  refine ⟨fun value => ?_, ?_, fun other span spans same => ?_, requiresPython?_eq_none_iff⟩
  · rw [poetryPython?, map_ofList_eq_some_iff]
    exact findSome?_poetryLines_eq_some_iff
  · rw [poetryPython?, Option.map_eq_none_iff]
    exact findSome?_poetryLines_eq_none_iff
  · rw [poetryPython?, poetryPython?, poetryLines_of_spans spans, poetryLines_of_spans same]

/-- A manifest text with the key in front of the dependency table and another table behind it. -/
def surroundedTable : String :=
  "python='2'\n[ tool.poetry.dependencies ] #\npython=''\npython='^3'\n[x]"

/-- A manifest text with two dependency tables. -/
def repeatedTable : String :=
  "[tool.poetry.dependencies]\r\npython=''\r\npython='^3'\r\n" ++
    "[tool.poetry.dependencies]\r\npython='^4'"

/-- A blank value is passed over, and neither the key in front of the table nor a second table makes
a difference. -/
theorem poetryPython?_confined_of_repeated_table :
    ∃ span, Spans (activeLines surroundedTable.toList) span ∧
      Spans (activeLines repeatedTable.toList) span ∧
      poetryPython? repeatedTable = poetryPython? surroundedTable ∧
      poetryPython? surroundedTable = some "^3" := by
  have surrounded : poetryLines (activeLines surroundedTable.toList) =
      ["python=''".toList, "python='^3'".toList] := by decide
  have repeated : poetryLines (activeLines repeatedTable.toList) =
      ["python=''".toList, "python='^3'".toList] := by decide
  have first := (spans_poetryLines (activeLines surroundedTable.toList)).resolve_right
    (by simp [surrounded])
  have second := (spans_poetryLines (activeLines repeatedTable.toList)).resolve_right
    (by simp [repeated])
  rw [surrounded] at first
  rw [repeated] at second
  refine ⟨_, first, second, (poetryPython?_confined surroundedTable).2.2.1 _ _ first second, ?_⟩
  rw [poetryPython?, surrounded]
  decide

end BuildMatrix.Manifest
