import BuildMatrix.Version.Collection

/-!
# Clauses

A clause is one comparison with a version. Its text is an operator directly followed by the
version; reading tells a text that has no such shape from one whose version is not a version. A
written clause is read back.
-/

namespace BuildMatrix

/-- The six comparisons of a clause. -/
inductive Comparator where
  | greaterOrEqual
  | greater
  | lessOrEqual
  | less
  | equal
  | notEqual
deriving DecidableEq

/-- Causes for which a constraint selects nothing. -/
inductive ConstraintError where
  /-- A piece of the constraint is no clause. -/
  | malformedClause (clause : String)
  /-- A piece of the constraint has an operator and a digit, but no version after the operator. -/
  | malformedVersion (cause : VersionError)
  /-- No candidate satisfies every clause. -/
  | noMatch (constraint : String)
deriving DecidableEq

/-- The user-facing text of a constraint failure. -/
def ConstraintError.message : ConstraintError → String
  | .malformedClause clause => s!"malformed constraint clause '{clause}'"
  | .malformedVersion cause => s!"malformed version in constraint: {cause.message}"
  | .noMatch constraint => s!"no candidate version satisfies '{constraint}'"

/-- Failures that are about the constraint alone, whatever the candidates. -/
def ConstraintError.isMalformed : ConstraintError → Bool
  | .malformedClause _ => true
  | .malformedVersion _ => true
  | .noMatch _ => false

namespace Comparator

/-- The operator's characters. -/
def symbol : Comparator → List Char
  | greaterOrEqual => ['>', '=']
  | greater => ['>']
  | lessOrEqual => ['<', '=']
  | less => ['<']
  | equal => ['=', '=']
  | notEqual => ['!', '=']

/-- The longest operator at the start of a text, and the text after it. -/
def split? : List Char → Option (Comparator × List Char)
  | '>' :: '=' :: rest => some (greaterOrEqual, rest)
  | '>' :: rest => some (greater, rest)
  | '<' :: '=' :: rest => some (lessOrEqual, rest)
  | '<' :: rest => some (less, rest)
  | '=' :: '=' :: rest => some (equal, rest)
  | '!' :: '=' :: rest => some (notEqual, rest)
  | _ => none

/-- The comparison of `candidate` with `bound`. -/
def holds (comparator : Comparator) (candidate bound : Version) : Bool :=
  match comparator with
  | greaterOrEqual => bound ≤ candidate
  | greater => bound < candidate
  | lessOrEqual => candidate ≤ bound
  | less => candidate < bound
  | equal => candidate = bound
  | notEqual => candidate ≠ bound

/-- An operator is found in front of everything that does not start with an equals sign. -/
theorem split?_symbol (comparator : Comparator) {rest : List Char} (plain : rest.head? ≠ some '=') :
    split? (comparator.symbol ++ rest) = some (comparator, rest) := by
  cases rest with
  | nil => cases comparator <;> rfl
  | cons c tail =>
    have different : c ≠ '=' := by simpa using plain
    cases comparator <;> simp [symbol, split?, different]

end Comparator

/-- One comparison of a candidate with a version. -/
structure Clause where
  /-- The comparison. -/
  comparator : Comparator
  /-- What candidates are compared with. -/
  version : Version
deriving DecidableEq

namespace Clause

/-- A candidate satisfies the clause. -/
def holds (clause : Clause) (candidate : Version) : Bool :=
  clause.comparator.holds candidate clause.version

/-- The characters of a clause. -/
def chars (clause : Clause) : List Char :=
  clause.comparator.symbol ++ clause.version.chars

/-- The text of a clause. -/
def render (clause : Clause) : String :=
  String.ofList clause.chars

/-- What may follow an operator: a decimal digit of any script, then no white space. -/
def isOperand : List Char → Bool
  | [] => false
  | c :: rest => Text.isDecimalDigit c && Text.isSolid rest

/-- The clause that a text spells exactly, without white space around it. -/
def ofChars (text : List Char) : Except ConstraintError Clause :=
  match Comparator.split? text with
  | none => .error (.malformedClause (String.ofList text))
  | some (comparator, operand) =>
    if isOperand operand then
      match Version.ofChars? operand with
      | some version => .ok ⟨comparator, version⟩
      | none => .error (.malformedVersion (.malformed (String.ofList operand)))
    else .error (.malformedClause (String.ofList text))

/-- Read a clause, white space around it allowed. -/
def parse (text : String) : Except ConstraintError Clause :=
  ofChars (Text.trim text.toList)

end Clause

end BuildMatrix
