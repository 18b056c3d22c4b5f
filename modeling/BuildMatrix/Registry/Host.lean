import BuildMatrix.Text.Numeral
import BuildMatrix.Text.Utf8

/-!
# Hosts

The host of a URL is a name, an address of four numbers or an address of eight groups in brackets,
and it is written in one form: names in ASCII, addresses with four decimal numbers or with
hexadecimal groups whose longest run of zeros is left out. Names beyond ASCII are mapped by tables
of Unicode, which are taken as a parameter: `asciiName?` is the ASCII form of a name, in lower case,
if it has one.
-/

namespace BuildMatrix.Registry

/-! ## Percent form -/

/-- A character beyond printable ASCII, which is encoded everywhere. -/
def isControl (c : Char) : Bool :=
  c.toNat ≤ 0x1F || 0x7E < c.toNat

/-- One byte in percent form. -/
def percentForm (byte : UInt8) : List Char :=
  let digit (value : Nat) := (Nat.digitChar value).toUpper
  ['%', digit (byte.toNat / 16), digit (byte.toNat % 16)]

/-- A text with the characters of a set in percent form. -/
def encode (inSet : Char → Bool) (text : List Char) : List Char :=
  text.flatMap fun c => if inSet c then (String.utf8EncodeChar c).flatMap percentForm else [c]

/-- The value of a hexadecimal digit. -/
def digitValue? (c : Char) : Option Nat :=
  if '0' ≤ c ∧ c ≤ '9' then some (c.toNat - '0'.toNat)
  else if 'a' ≤ c ∧ c ≤ 'f' then some (10 + (c.toNat - 'a'.toNat))
  else if 'A' ≤ c ∧ c ≤ 'F' then some (10 + (c.toNat - 'A'.toNat))
  else none

/-- The bytes of a text with every percent form turned into its byte. -/
def percentDecoded : List Char → Bytes
  | [] => []
  | '%' :: first :: second :: rest =>
    match digitValue? first, digitValue? second with
    | some high, some low => UInt8.ofNat (16 * high + low) :: percentDecoded rest
    | _, _ => String.utf8EncodeChar '%' ++ percentDecoded (first :: second :: rest)
  | c :: rest => String.utf8EncodeChar c ++ percentDecoded rest

namespace Host

/-- The number that digits denote in a base; no digits denote zero. -/
def numberIn? (base : Nat) (digits : List Char) : Option Nat :=
  digits.foldlM (fun value c =>
    (digitValue? c).bind fun digit => if digit < base then some (base * value + digit) else none) 0

/-! ## Addresses of four numbers -/

/-- The number that a part of an address denotes, in hexadecimal, octal or decimal digits. -/
def part? : List Char → Option Nat
  | [] => none
  | '0' :: 'x' :: digits => numberIn? 16 digits
  | '0' :: 'X' :: digits => numberIn? 16 digits
  | '0' :: first :: digits => numberIn? 8 (first :: digits)
  | digits => numberIn? 10 digits

/-- The parts of a name between its dots; one dot at its end separates nothing. -/
def parts (name : List Char) : List (List Char) :=
  match (List.splitOn '.' name).reverse with
  | [] :: last :: front => (last :: front).reverse
  | _ => List.splitOn '.' name

/-- The last part of a name is a number, so that the name has to be an address. -/
def endsInNumber (name : List Char) : Bool :=
  match (parts name).getLast? with
  | some last => (!last.isEmpty && last.all Char.isDigit) || (part? last).isSome
  | none => false

/-- The address that a name denotes, as one number. Every part but the last is one byte, and the
last one fills the bytes that are left. -/
def address? (name : List Char) : Option Nat := do
  let numbers ← (parts name).mapM part?
  let front := numbers.dropLast
  let last ← numbers.getLast?
  let room := Nat.pow 256 (4 - front.length)
  if 4 < numbers.length ∨ front.any (255 < ·) ∨ room ≤ last then none
  else some (front.foldl (fun value byte => 256 * value + byte) 0 * room + last)

/-- An address in its four decimal numbers. -/
def dotted (address : Nat) : List Char :=
  let byte (place : Nat) := Text.numeral (address / Nat.pow 256 place % 256)
  List.intercalate ['.'] [byte 3, byte 2, byte 1, byte 0]

/-! ## Addresses of eight groups -/

/-- A group of one to four hexadecimal digits. -/
def group? (digits : List Char) : Option Nat :=
  if digits.isEmpty ∨ 4 < digits.length then none else numberIn? 16 digits

/-- A decimal number of one byte, without a zero in front. -/
def byte? (digits : List Char) : Option Nat :=
  (Text.readNumeral? digits).bind fun value =>
    if value ≤ 255 ∧ Text.numeral value = digits then some value else none

/-- The two groups that an address of four numbers stands for at the end of one of groups. -/
def twoGroups? (text : List Char) : Option (List Nat) :=
  match (List.splitOn '.' text).mapM byte? with
  | some [first, second, third, fourth] => some [256 * first + second, 256 * third + fourth]
  | _ => none

/-- The groups that pieces between colons denote; the last piece may stand for two of them. -/
def groups? : List (List Char) → Option (List Nat)
  | [] => some []
  | [last] => ((group? last).map fun group => [group]).or (twoGroups? last)
  | piece :: rest => do
    let group ← group? piece
    let groups ← groups? rest
    some (group :: groups)

/-- The text before the first two colons in a row, and the text after them. -/
def aroundGap? : List Char → Option (List Char × List Char)
  | [] => none
  | ':' :: ':' :: after => some ([], after)
  | c :: rest => (aroundGap? rest).map fun (before, after) => (c :: before, after)

/-- The pieces of a text between its colons; an empty text has none. -/
def pieces (text : List Char) : List (List Char) :=
  if text.isEmpty then [] else List.splitOn ':' text

/-- The eight groups that a text in brackets denotes. Two colons in a row stand for as many zeros as
are missing, at least for one. -/
def eightGroups? (text : List Char) : Option (List Nat) :=
  match aroundGap? text with
  | none => (groups? (pieces text)).bind fun groups =>
    if groups.length = 8 then some groups else none
  | some (before, after) => do
    let first ← (pieces before).mapM group?
    let last ← groups? (pieces after)
    let present := first.length + last.length
    if present ≤ 7 then some (first ++ List.replicate (8 - present) 0 ++ last) else none

/-- Where the longest run of zero groups begins, the first one of several, and its length. -/
def longestGap (groups : List Nat) : Nat × Nat :=
  (List.range groups.length).foldl (fun (start, length) next =>
    let run := ((groups.drop next).takeWhile (· = 0)).length
    if length < run then (next, run) else (start, length)) (0, 0)

/-- Groups in lower case, with a colon between neighbours. -/
def colonSeparated (groups : List Nat) : List Char :=
  List.intercalate [':'] (groups.map (Nat.toDigits 16))

/-- An address in its eight groups, with two colons for the longest run of zeros unless that is a
single one. -/
def compressed (groups : List Nat) : List Char :=
  let (start, length) := longestGap groups
  if length < 2 then colonSeparated groups
  else
    colonSeparated (groups.take start) ++ ':' :: ':' ::
      colonSeparated (groups.drop (start + length))

/-- An address of eight groups as a host. -/
def bracketed (groups : List Nat) : List Char :=
  '[' :: (compressed groups ++ [']'])

/-! ## Hosts -/

/-- The characters that no name may hold. -/
def isForbidden (c : Char) : Bool :=
  isControl c || c ∈ [' ', '#', '%', '/', ':', '<', '>', '?', '@', '[', '\\', ']', '^', '|']

/-- The characters that no host may hold where schemes give hosts no meaning. -/
def isForbiddenInOpaque (c : Char) : Bool :=
  c ∈ ['\x00', '\t', '\n', '\r', ' ', '#', '/', ':', '<', '>', '?', '@', '[', '\\', ']', '^', '|']

variable (asciiName? : List Char → Option (List Char))

/-- The name or address of four numbers that a text without brackets denotes. -/
def name? (text : List Char) : Option (List Char) := do
  let decoded ← Text.decodeUtf8? (percentDecoded text)
  let name ← asciiName? decoded.toList
  if name.isEmpty ∨ name.any isForbidden then none
  else if endsInNumber name then (address? name).map dotted
  else some name

/-- The host that a text denotes. Schemes that give hosts no meaning have any text without the
forbidden characters for a host. -/
def read? (special : Bool) (text : List Char) : Option (List Char) :=
  match text.head?, text.getLast? with
  | some '[', some ']' => (eightGroups? (text.drop 1).dropLast).map bracketed
  | some '[', _ => none
  | _, _ =>
    if special then name? asciiName? text
    else if text.any isForbiddenInOpaque then none
    else some (encode isControl text)

end Host

end BuildMatrix.Registry
