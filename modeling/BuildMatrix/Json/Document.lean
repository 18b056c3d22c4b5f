/-!
# JSON documents

The documents that the library writes are made of strings, arrays and objects. Strings escape the
quote, the backslash and the control characters below U+0020 and nothing else; the laid-out form
puts every item and member on a line of its own, two spaces deeper than the bracket around it.
-/

namespace BuildMatrix.Json

/-- A document to be written. -/
inductive Document where
  /-- A string with its text. -/
  | string (text : String)
  /-- Items in order. -/
  | array (items : List Document)
  /-- Members in order. -/
  | object (members : List (String × Document))

/-- A hexadecimal digit in lower case. -/
def hexDigit (value : Nat) : Char :=
  Nat.digitChar value

/-- A character as it is written inside a string. -/
def escape (c : Char) : List Char :=
  if c = '"' then ['\\', '"']
  else if c = '\\' then ['\\', '\\']
  else if c = '\x08' then ['\\', 'b']
  else if c = '\x0c' then ['\\', 'f']
  else if c = '\n' then ['\\', 'n']
  else if c = '\r' then ['\\', 'r']
  else if c = '\t' then ['\\', 't']
  else if c.toNat < 0x20 then
    ['\\', 'u', '0', '0', hexDigit (c.toNat / 16), hexDigit (c.toNat % 16)]
  else [c]

/-- A text as a JSON string. -/
def quote (text : List Char) : List Char :=
  '"' :: (text.flatMap escape ++ ['"'])

/-- A line break and the indentation of the next line. -/
def lineBreak (indent : Nat) : List Char :=
  '\n' :: List.replicate indent ' '

/-- Written parts on lines of their own between two brackets. -/
def block (opening closing : Char) (indent : Nat) (parts : List (List Char)) : List Char :=
  match parts with
  | [] => [opening, closing]
  | _ =>
    opening :: (lineBreak (indent + 2) ++
      (',' :: lineBreak (indent + 2)).intercalate parts ++ lineBreak indent ++ [closing])

mutual

/-- The laid-out form of a document whose first line is already indented. -/
def Document.chars (indent : Nat) : Document → List Char
  | .string text => quote text.toList
  | .array items => block '[' ']' indent (itemChars (indent + 2) items)
  | .object members => block '\x7b' '\x7d' indent (memberChars (indent + 2) members)

/-- The laid-out forms of the items of an array. -/
def itemChars (indent : Nat) : List Document → List (List Char)
  | [] => []
  | item :: items => item.chars indent :: itemChars indent items

/-- The laid-out forms of the members of an object. -/
def memberChars (indent : Nat) : List (String × Document) → List (List Char)
  | [] => []
  | (name, item) :: members =>
    (quote name.toList ++ ':' :: ' ' :: item.chars indent) :: memberChars indent members

end

/-- The laid-out form of a document. -/
def Document.render (document : Document) : String :=
  String.ofList (document.chars 0)

end BuildMatrix.Json
