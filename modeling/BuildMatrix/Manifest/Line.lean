import BuildMatrix.Text.WhiteSpace

/-!
# Active lines

A manifest is read line by line. Lines end at a newline, a carriage return before it belongs to the
white space around the line, and a line is active when something other than a comment is left after
trimming. Layout and comments are gone from the active lines, so nothing read from them depends on
either.
-/

namespace BuildMatrix.Manifest

/-- A trimmed line that declares something: neither blank nor a comment. -/
def isActive (line : List Char) : Bool :=
  match line with
  | [] => false
  | c :: _ => c ≠ '#'

/-- The trimmed lines of a text that are neither blank nor comments, in order. -/
def activeLines (content : List Char) : List (List Char) :=
  ((List.splitOn '\n' content).map Text.trim).filter isActive

end BuildMatrix.Manifest
