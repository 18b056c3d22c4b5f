import BuildMatrix.Constraint.Clause

/-!
# Shorthands

Constraint expressions are comma-separated tokens. Beside plain clauses they may hold shorthands: a
caret or tilde range, a compatible release, a wildcard, or a comparison with a patch component.
Each shorthand stands for one or two clauses, unless its upper bound would not fit in a version.
Normalizing an expression writes the clauses in place of the shorthands and keeps every other token
as it is.
-/

namespace BuildMatrix

/-- The tokens that stand for clauses without being clauses. -/
inductive Shorthand where
  /-- A comparison whose patch component is dropped; exclusions count with or without one. -/
  | comparison (comparator : Comparator) (bound : Version)
  /-- A caret range: from the version to the end of its series. -/
  | caret (bound : Version)
  /-- A tilde range, compatible release or release wildcard: this release alone. -/
  | release (bound : Version)
  /-- A series wildcard: every release of the series. -/
  | series (major : UInt32)
deriving DecidableEq

namespace Shorthand

/-- The comparison or wildcard that an operator and the text after it spell. -/
def ofComparison? (comparator : Comparator) (operand : List Char) : Option Shorthand :=
  match comparator, List.splitOn '.' operand with
  | .equal, [major, ['*']] => (readWord? major).map .series
  | .equal, [major, minor, ['*']] => (Version.ofComponents? major minor).map .release
  | .notEqual, _ => (Release.ofChars? operand).map fun found => .comparison .notEqual found.version
  | _, _ =>
    (Release.ofChars? operand).bind fun found =>
      found.patch.map fun _ => .comparison comparator found.version

/-- The shorthand that a token spells, if it is one. -/
def ofChars? (token : List Char) : Option Shorthand :=
  match token with
  | '^' :: operand => (Release.ofChars? operand).map fun found => .caret found.version
  | '~' :: '=' :: operand => (Release.ofChars? operand).map fun found => .release found.version
  | '~' :: operand => (Release.ofChars? operand).map fun found => .release found.version
  | _ =>
    (Comparator.split? token).bind fun (comparator, operand) => ofComparison? comparator operand

/-- The half-open range of versions from `lower` to `upper`. -/
def range (lower upper : Version) : List Clause :=
  [⟨.greaterOrEqual, lower⟩, ⟨.less, upper⟩]

/-- The clauses that a shorthand stands for, unless its upper bound does not fit. -/
def clauses? : Shorthand → Option (List Clause)
  | comparison comparator bound => some [⟨comparator, bound⟩]
  | caret bound => bound.nextMajor?.map (range bound)
  | release bound => bound.nextMinor?.map (range bound)
  | series major => (Version.nextMajor? ⟨major, 0⟩).map (range ⟨major, 0⟩)

end Shorthand

namespace Constraint

/-- A token with its shorthand, if it is one that fits, written as clauses. -/
def normalizeToken (token : List Char) : List Char :=
  match (Shorthand.ofChars? token).bind Shorthand.clauses? with
  | some clauses => List.intercalate [','] (clauses.map Clause.chars)
  | none => token

/-- The non-empty pieces between the commas of a text without white space. -/
def tokens (expression : List Char) : List (List Char) :=
  (List.splitOn ',' (Text.squeeze expression)).filter fun token => !token.isEmpty

/-- Normalize one token, white space around it dropped. -/
def normalizeClause (token : String) : String :=
  String.ofList (normalizeToken (Text.trim token.toList))

/-- Normalize a whole expression: no white space, no empty token, no shorthand that fits. -/
def normalize (expression : String) : String :=
  String.ofList (List.intercalate [','] ((tokens expression.toList).map normalizeToken))

end Constraint

end BuildMatrix
