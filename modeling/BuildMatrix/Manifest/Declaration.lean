import BuildMatrix.Manifest.Line
import BuildMatrix.Text.Literal

/-!
# Declared constraints

A manifest declares a constraint as a quoted value: under the key of the project table, which is
looked for on every line, or under the interpreter's key of the Poetry dependency table, which is
looked for between that table's header and the next one. The first value that is not blank counts,
and the project key comes before the Poetry key.
-/

namespace BuildMatrix

/-- The two keys under which a manifest declares a constraint. -/
inductive ConstraintKey where
  /-- The key of the project table. -/
  | requiresPython
  /-- The key of the Poetry dependency table. -/
  | poetryDependency
deriving DecidableEq

/-- The dotted path of a key. -/
def ConstraintKey.path : ConstraintKey → String
  | .requiresPython => "project.requires-python"
  | .poetryDependency => "tool.poetry.dependencies.python"

/-- A constraint as the manifest declares it. -/
structure DeclaredConstraint where
  /-- The declared expression, trimmed. -/
  expression : String
  /-- The key it was declared under. -/
  key : ConstraintKey
deriving DecidableEq

namespace Manifest

/-- The two characters that may enclose a value. -/
def isQuote (c : Char) : Bool :=
  c = '"' || c = '\''

/-- The value enclosed by the quote at the start of a text and its next occurrence. -/
def quoted? : List Char → Option (List Char)
  | [] => none
  | quote :: rest =>
    if isQuote quote && rest.contains quote then some (rest.takeWhile (· ≠ quote)) else none

/-- The trimmed quoted value that a line assigns to `key`, unless it is blank. -/
def assigned? (key line : List Char) : Option (List Char) :=
  (Text.after? key line).bind fun afterKey =>
    (Text.after? ['='] (Text.trimStart afterKey)).bind fun afterSign =>
      (quoted? (Text.trimStart afterSign)).bind fun body =>
        if (Text.trim body).isEmpty then none else some (Text.trim body)

/-- The key of the project table. -/
def projectKey : List Char :=
  "requires-python".toList

/-- The interpreter's key in the Poetry dependency table. -/
def poetryKey : List Char :=
  "python".toList

/-- The name of the Poetry dependency table. -/
def poetryTable : List Char :=
  "tool.poetry.dependencies".toList

/-- A line that opens a table. -/
def opensTable (line : List Char) : Bool :=
  line.head? = some '['

/-- A line that opens the Poetry dependency table: its name in brackets, then at most a comment. -/
def opensPoetryTable (line : List Char) : Bool :=
  let after? := (Text.after? ['['] line).bind fun inside =>
    (Text.after? poetryTable (Text.trimStart inside)).bind fun afterName =>
      Text.after? [']'] (Text.trimStart afterName)
  match after? with
  | none => false
  | some after => (Text.trimStart after).isEmpty || (Text.trimStart after).head? = some '#'

/-- The lines between the first header of the Poetry dependency table and the next table. -/
def poetryLines (lines : List (List Char)) : List (List Char) :=
  let after := (lines.dropWhile fun line => !opensPoetryTable line).drop 1
  after.takeWhile fun line => !opensTable line

/-- The first project constraint of a manifest text. -/
def requiresPython? (content : String) : Option String :=
  ((activeLines content.toList).findSome? (assigned? projectKey)).map String.ofList

/-- The first Poetry constraint of a manifest text. -/
def poetryPython? (content : String) : Option String :=
  ((poetryLines (activeLines content.toList)).findSome? (assigned? poetryKey)).map String.ofList

/-- The constraint that a manifest text declares, the project key first. -/
def constraint? (content : String) : Option DeclaredConstraint :=
  match requiresPython? content with
  | some expression => some ⟨expression, .requiresPython⟩
  | none => (poetryPython? content).map fun expression => ⟨expression, .poetryDependency⟩

end Manifest

end BuildMatrix
