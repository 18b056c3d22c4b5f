import BuildMatrix.Text.Utf8

/-!
# JSON texts

A JSON text is read from bytes into a tree. Reading checks that strings are well formed but does
not decode them, and keeps numbers as they are spelled: a value that nobody asks for may hold
numbers of any size, unpaired surrogates and bytes that are not UTF-8. Decoding a string is a
separate step, which those make fail.
-/

namespace BuildMatrix.Json

/-- A JSON value as it was spelled. -/
inductive Tree where
  /-- The literal for nothing. -/
  | null
  /-- A truth value. -/
  | boolean (value : Bool)
  /-- A number with its spelling. -/
  | number (spelling : Bytes)
  /-- A string with the bytes between its quotes. -/
  | string (body : Bytes)
  /-- An array with its items in order. -/
  | array (items : List Tree)
  /-- An object with its members in order, names as spelled. -/
  | object (members : List (Bytes × Tree))
deriving Inhabited

/-- The four bytes of white space between tokens. -/
def isSpace (byte : UInt8) : Bool :=
  byte = 0x20 || byte = 0x09 || byte = 0x0A || byte = 0x0D

/-- The bytes after leading white space. -/
def skipSpace (bytes : Bytes) : Bytes :=
  bytes.dropWhile isSpace

/-- A decimal digit. -/
def isDigit (byte : UInt8) : Bool :=
  0x30 ≤ byte && byte ≤ 0x39

/-- The value of a hexadecimal digit in either case. -/
def hexValue? (byte : UInt8) : Option Nat :=
  if 0x30 ≤ byte && byte ≤ 0x39 then some (byte.toNat - 0x30)
  else if 0x41 ≤ byte && byte ≤ 0x46 then some (byte.toNat - 0x41 + 10)
  else if 0x61 ≤ byte && byte ≤ 0x66 then some (byte.toNat - 0x61 + 10)
  else none

/-- The code unit that four hexadecimal digits spell. -/
def codeUnit? (first second third fourth : UInt8) : Option Nat := do
  let first ← hexValue? first
  let second ← hexValue? second
  let third ← hexValue? third
  let fourth ← hexValue? fourth
  some (((first * 16 + second) * 16 + third) * 16 + fourth)

/-- The byte that a one-letter escape stands for. -/
def escapedByte? (letter : UInt8) : Option UInt8 :=
  match letter with
  | 0x22 => some 0x22
  | 0x5C => some 0x5C
  | 0x2F => some 0x2F
  | 0x62 => some 0x08
  | 0x66 => some 0x0C
  | 0x6E => some 0x0A
  | 0x72 => some 0x0D
  | 0x74 => some 0x09
  | _ => none

/-- The bytes of a string up to its closing quote, and those after it. Escapes must be spelled in
full and control characters must be escaped. -/
def stringBody? : Bytes → Option (Bytes × Bytes)
  | [] => none
  | 0x22 :: rest => some ([], rest)
  | 0x5C :: 0x75 :: first :: second :: third :: fourth :: rest => do
    let _ ← codeUnit? first second third fourth
    let (body, after) ← stringBody? rest
    some (0x5C :: 0x75 :: first :: second :: third :: fourth :: body, after)
  | 0x5C :: letter :: rest => do
    let _ ← escapedByte? letter
    let (body, after) ← stringBody? rest
    some (0x5C :: letter :: body, after)
  | byte :: rest => do
    guard (0x20 ≤ byte && byte ≠ 0x5C)
    let (body, after) ← stringBody? rest
    some (byte :: body, after)

/-- A non-empty run of digits, and the bytes after it. -/
def digits? (bytes : Bytes) : Option (Bytes × Bytes) :=
  let run := bytes.takeWhile isDigit
  if run.isEmpty then none else some (run, bytes.dropWhile isDigit)

/-- The whole part of a number: zero alone, or digits that start with another one. -/
def whole? (bytes : Bytes) : Option (Bytes × Bytes) :=
  match bytes with
  | 0x30 :: rest => some ([0x30], rest)
  | _ => digits? bytes

/-- The fraction of a number, if a point starts it. -/
def fraction? (bytes : Bytes) : Option (Bytes × Bytes) :=
  match bytes with
  | 0x2E :: rest => (digits? rest).map fun (run, after) => (0x2E :: run, after)
  | _ => some ([], bytes)

/-- The digits of an exponent after its optional sign. -/
def signedDigits? (bytes : Bytes) : Option (Bytes × Bytes) :=
  match bytes with
  | 0x2B :: rest => (digits? rest).map fun (run, after) => (0x2B :: run, after)
  | 0x2D :: rest => (digits? rest).map fun (run, after) => (0x2D :: run, after)
  | _ => digits? bytes

/-- The exponent of a number, if its letter starts it. -/
def exponent? (bytes : Bytes) : Option (Bytes × Bytes) :=
  match bytes with
  | 0x65 :: rest => (signedDigits? rest).map fun (run, after) => (0x65 :: run, after)
  | 0x45 :: rest => (signedDigits? rest).map fun (run, after) => (0x45 :: run, after)
  | _ => some ([], bytes)

/-- A number without its sign. -/
def unsigned? (bytes : Bytes) : Option (Bytes × Bytes) := do
  let (whole, bytes) ← whole? bytes
  let (fraction, bytes) ← fraction? bytes
  let (exponent, bytes) ← exponent? bytes
  some (whole ++ fraction ++ exponent, bytes)

/-- A number's spelling, and the bytes after it. -/
def number? (bytes : Bytes) : Option (Bytes × Bytes) :=
  match bytes with
  | 0x2D :: rest => (unsigned? rest).map fun (spelling, after) => (0x2D :: spelling, after)
  | _ => unsigned? bytes

mutual

/-- The value at the start of the bytes, and the bytes after it; `depth` bounds the tokens read. -/
def value? (depth : Nat) (bytes : Bytes) : Option (Tree × Bytes) :=
  match depth with
  | 0 => none
  | depth + 1 =>
    match bytes with
    | 0x6E :: 0x75 :: 0x6C :: 0x6C :: rest => some (.null, rest)
    | 0x74 :: 0x72 :: 0x75 :: 0x65 :: rest => some (.boolean true, rest)
    | 0x66 :: 0x61 :: 0x6C :: 0x73 :: 0x65 :: rest => some (.boolean false, rest)
    | 0x22 :: rest => (stringBody? rest).map fun (body, after) => (.string body, after)
    | 0x5B :: rest =>
      match skipSpace rest with
      | 0x5D :: after => some (.array [], after)
      | _ => (items? depth rest).map fun (items, after) => (.array items, after)
    | 0x7B :: rest =>
      match skipSpace rest with
      | 0x7D :: after => some (.object [], after)
      | _ => (members? depth rest).map fun (members, after) => (.object members, after)
    | _ => (number? bytes).map fun (spelling, after) => (.number spelling, after)

/-- The items of an array up to its closing bracket, and the bytes after it. -/
def items? (depth : Nat) (bytes : Bytes) : Option (List Tree × Bytes) :=
  match depth with
  | 0 => none
  | depth + 1 =>
    match value? depth (skipSpace bytes) with
    | none => none
    | some (item, rest) =>
      match skipSpace rest with
      | 0x5D :: after => some ([item], after)
      | 0x2C :: more => (items? depth more).map fun (items, after) => (item :: items, after)
      | _ => none

/-- The members of an object up to its closing brace, and the bytes after it. -/
def members? (depth : Nat) (bytes : Bytes) : Option (List (Bytes × Tree) × Bytes) :=
  match depth with
  | 0 => none
  | depth + 1 =>
    match skipSpace bytes with
    | 0x22 :: rest =>
      match stringBody? rest with
      | none => none
      | some (name, rest) =>
        match skipSpace rest with
        | 0x3A :: rest =>
          match value? depth (skipSpace rest) with
          | none => none
          | some (item, rest) =>
            match skipSpace rest with
            | 0x7D :: after => some ([(name, item)], after)
            | 0x2C :: more =>
              (members? depth more).map fun (members, after) => ((name, item) :: members, after)
            | _ => none
        | _ => none
    | _ => none

end

/-- Read a JSON text: one value with nothing but white space around it. -/
def read? (bytes : Bytes) : Option Tree :=
  match value? (2 * bytes.length + 2) (skipSpace bytes) with
  | none => none
  | some (tree, rest) => if (skipSpace rest).isEmpty then some tree else none

/-- A code unit that only the first half of a pair may have. -/
def isHighSurrogate (unit : Nat) : Bool :=
  0xD800 ≤ unit && unit ≤ 0xDBFF

/-- A code unit that only the second half of a pair may have. -/
def isLowSurrogate (unit : Nat) : Bool :=
  0xDC00 ≤ unit && unit ≤ 0xDFFF

/-- The UTF-8 bytes of a code point. -/
def codePointBytes (codePoint : Nat) : Bytes :=
  String.utf8EncodeChar (Char.ofNat codePoint)

/-- The bytes that a string body stands for; surrogates must come in pairs. -/
def unescape? : Bytes → Option Bytes
  | [] => some []
  | 0x5C :: 0x75 :: first :: second :: third :: fourth :: rest => do
    let unit ← codeUnit? first second third fourth
    if isLowSurrogate unit then none
    else if isHighSurrogate unit then
      match rest with
      | 0x5C :: 0x75 :: first :: second :: third :: fourth :: rest =>
        let low ← codeUnit? first second third fourth
        guard (isLowSurrogate low)
        let decoded ← unescape? rest
        some (codePointBytes (0x10000 + (unit - 0xD800) * 0x400 + (low - 0xDC00)) ++ decoded)
      | _ => none
    else
      let decoded ← unescape? rest
      some (codePointBytes unit ++ decoded)
  | 0x5C :: letter :: rest => do
    let byte ← escapedByte? letter
    let decoded ← unescape? rest
    some (byte :: decoded)
  | byte :: rest => do
    let decoded ← unescape? rest
    some (byte :: decoded)

/-- The text of a string body. -/
def decode? (body : Bytes) : Option String :=
  (unescape? body).bind Text.decodeUtf8?

end BuildMatrix.Json
