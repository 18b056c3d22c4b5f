import BuildMatrix.Decimal.Shortest
import BuildMatrix.Json.Document
import BuildMatrix.Json.Number
import BuildMatrix.Version.Reading

/-!
# Versions in JSON

A version is a JSON string with its text. Reading one from any other JSON value fails with a
description of that value.
-/

namespace BuildMatrix

/-- Causes for which a JSON value is no version. -/
inductive DecodingError where
  /-- The value is a string, but not the text of a version. -/
  | malformed (cause : VersionError)
  /-- The value is no string. -/
  | wrongType (found : String)
deriving DecidableEq

/-- The user-facing text of a decoding failure. -/
def DecodingError.message : DecodingError → String
  | .malformed cause => cause.message
  | .wrongType found => s!"invalid type: {found}, expected a string"

/-- A value's text between backquotes, after the word for its type. -/
def typedValue (type : String) (value : List Char) : String :=
  String.ofList (type.toList ++ ' ' :: '\x60' :: (value ++ ['\x60']))

/-- The characters of an integer. -/
def integerChars (value : Int) : List Char :=
  (if value < 0 then ['-'] else []) ++ Text.numeral value.natAbs

/-- What is said about a JSON value where a string was expected. -/
def describeValue : Json.Tree → String
  | .null => "null"
  | .boolean value => typedValue "boolean" (if value then "true".toList else "false".toList)
  | .number spelling =>
    match Json.Number.ofBytes? spelling with
    | some (.integer value) => typedValue "integer" (integerChars value)
    | some (.floating value) => typedValue "floating point" (Decimal.floatChars value)
    | none => "number out of range"
  | .string _ => "string"
  | .array _ => "sequence"
  | .object _ => "map"

namespace Version

/-- The version that a JSON value holds. -/
def ofTree (tree : Json.Tree) : Except DecodingError Version :=
  match tree with
  | .string body =>
    match Json.decode? body with
    | some text => (parse text).mapError .malformed
    | none => .error (.wrongType (describeValue tree))
  | _ => .error (.wrongType (describeValue tree))

/-- The JSON text of a version. -/
def quoted (version : Version) : String :=
  String.ofList (Json.quote version.chars)

end Version

end BuildMatrix
