import BuildMatrix.Json.Document
import BuildMatrix.Json.Tree
import BuildMatrix.Proofs.Text.Utf8
import Mathlib.Data.Option.Basic

/-!
# Strings of JSON texts

The grammar of what stands between the quotes of a string, and the text that it stands for, stated
without the reader: characters as they are, escapes of one letter, and code units in hexadecimal, of
which two make one character beyond U+FFFF. Decoding gives exactly the text that a string stands
for, and none for a string with half of a surrogate pair or with bytes that are no characters. What
the writer makes of a text stands for that text.
-/

namespace BuildMatrix.Json

open Text (encodeChars)

/-! ## The grammar -/

/-- The letters that follow a backslash, and the characters that they stand for. -/
def letterEscapes : List (UInt8 × Char) :=
  [(0x22, '"'), (0x5C, '\\'), (0x2F, '/'), (0x62, '\x08'), (0x66, '\x0C'), (0x6E, '\n'),
    (0x72, '\r'), (0x74, '\t')]

/-- The byte is a hexadecimal digit of this value: a decimal one, or a letter in either case. -/
def HexDigit (byte : UInt8) (value : Nat) : Prop :=
  (value < 10 ∧ byte.toNat = 0x30 + value) ∨
    (10 ≤ value ∧ value < 16 ∧
      (byte.toNat = 0x41 + (value - 10) ∨ byte.toNat = 0x61 + (value - 10)))

/-- Four hexadecimal digits spell a code unit. -/
def UnitSpelled (first second third fourth : UInt8) (unit : Nat) : Prop :=
  ∃ a b c d, HexDigit first a ∧ HexDigit second b ∧ HexDigit third c ∧ HexDigit fourth d ∧
    unit = ((a * 16 + b) * 16 + c) * 16 + d

/-- The bytes may stand between the quotes of a string. -/
inductive IsBody : Bytes → Prop where
  /-- Nothing stands between the quotes. -/
  | nil : IsBody []
  /-- A byte that is no control character, no quote and no backslash. -/
  | plain {byte : UInt8} {body : Bytes} (visible : 0x20 ≤ byte.toNat) (unquoted : byte ≠ 0x22)
      (unescaped : byte ≠ 0x5C) (rest : IsBody body) : IsBody (byte :: body)
  /-- An escape of one letter. -/
  | letter {letter : UInt8} {c : Char} {body : Bytes} (known : (letter, c) ∈ letterEscapes)
      (rest : IsBody body) : IsBody (0x5C :: letter :: body)
  /-- An escaped code unit, which may be half of a pair. -/
  | unit {first second third fourth : UInt8} {unit : Nat} {body : Bytes}
      (spelled : UnitSpelled first second third fourth unit) (rest : IsBody body) :
      IsBody (0x5C :: 0x75 :: first :: second :: third :: fourth :: body)

/-- What stands between the quotes of a string stands for a text. -/
inductive StandsFor : Bytes → List Char → Prop where
  /-- Nothing stands for an empty text. -/
  | nil : StandsFor [] []
  /-- A character as it is. -/
  | plain {c : Char} {body : Bytes} {text : List Char} (visible : 0x20 ≤ c.toNat)
      (unquoted : c ≠ '"') (unescaped : c ≠ '\\') (rest : StandsFor body text) :
      StandsFor (String.utf8EncodeChar c ++ body) (c :: text)
  /-- An escape of one letter. -/
  | letter {letter : UInt8} {c : Char} {body : Bytes} {text : List Char}
      (known : (letter, c) ∈ letterEscapes) (rest : StandsFor body text) :
      StandsFor (0x5C :: letter :: body) (c :: text)
  /-- A code unit that is no half of a pair is a character. -/
  | unit {first second third fourth : UInt8} {unit : Nat} {body : Bytes} {text : List Char}
      (spelled : UnitSpelled first second third fourth unit)
      (whole : unit < 0xD800 ∨ 0xE000 ≤ unit) (rest : StandsFor body text) :
      StandsFor (0x5C :: 0x75 :: first :: second :: third :: fourth :: body)
        (Char.ofNat unit :: text)
  /-- The two halves of a pair are a character beyond U+FFFF. -/
  | pair {a b c d e f g h : UInt8} {high low : Nat} {body : Bytes} {text : List Char}
      (first : UnitSpelled a b c d (0xD800 + high)) (highFits : high < 0x400)
      (second : UnitSpelled e f g h (0xDC00 + low)) (lowFits : low < 0x400)
      (rest : StandsFor body text) :
      StandsFor (0x5C :: 0x75 :: a :: b :: c :: d :: 0x5C :: 0x75 :: e :: f :: g :: h :: body)
        (Char.ofNat (0x10000 + high * 0x400 + low) :: text)

/-! ## Escapes -/

/-- The escapes of one letter are read as the bytes of their characters. -/
theorem escapedByte?_of_known {letter : UInt8} {c : Char} (known : (letter, c) ∈ letterEscapes) :
    c.toNat < 0x80 ∧ escapedByte? letter = some (UInt8.ofNat c.toNat) := by
  have all : ∀ entry ∈ letterEscapes, entry.2.toNat < 0x80 ∧
      escapedByte? entry.1 = some (UInt8.ofNat entry.2.toNat) := by decide
  exact all (letter, c) known

/-- No other letter is read as an escape. -/
theorem known_of_escapedByte? {letter byte : UInt8} (read : escapedByte? letter = some byte) :
    ∃ c, (letter, c) ∈ letterEscapes := by
  unfold escapedByte? at read
  split at read
  · exact ⟨'"', by decide⟩
  · exact ⟨'\\', by decide⟩
  · exact ⟨'/', by decide⟩
  · exact ⟨'\x08', by decide⟩
  · exact ⟨'\x0C', by decide⟩
  · exact ⟨'\n', by decide⟩
  · exact ⟨'\r', by decide⟩
  · exact ⟨'\t', by decide⟩
  · exact nomatch read

/-- The reader of hexadecimal digits knows exactly these. -/
theorem hexValue?_eq_some_iff {byte : UInt8} {value : Nat} :
    hexValue? byte = some value ↔ HexDigit byte value := by
  simp only [hexValue?, HexDigit, UInt8.le_iff_toNat_le, Bool.and_eq_true, decide_eq_true_eq]
  simp only [UInt8.reduceToNat]
  split_ifs with decimal capital small <;> simp only [Option.some.injEq, false_iff]
    <;> omega

/-- Four digits are read as the code unit that they spell. -/
theorem codeUnit?_eq_some_iff {first second third fourth : UInt8} {unit : Nat} :
    codeUnit? first second third fourth = some unit ↔
      UnitSpelled first second third fourth unit := by
  simp only [codeUnit?, bind, Option.bind_eq_some_iff, hexValue?_eq_some_iff, Option.some.injEq]
  constructor
  · rintro ⟨a, hexA, b, hexB, c, hexC, d, hexD, rfl⟩
    exact ⟨a, b, c, d, hexA, hexB, hexC, hexD, rfl⟩
  · rintro ⟨a, b, c, d, hexA, hexB, hexC, hexD, rfl⟩
    exact ⟨a, hexA, b, hexB, c, hexC, d, hexD, rfl⟩

/-! ## Decoding -/

/-- The bytes of the character that a code unit is. -/
theorem codePointBytes_eq (codePoint : Nat) :
    codePointBytes codePoint = String.utf8EncodeChar (Char.ofNat codePoint) := rfl

/-- The first half of a pair is a unit of the first range. -/
theorem isHighSurrogate_iff {unit : Nat} :
    isHighSurrogate unit = true ↔ 0xD800 ≤ unit ∧ unit < 0xDC00 := by
  simp only [isHighSurrogate, Bool.and_eq_true, decide_eq_true_eq]
  omega

/-- The second half of a pair is a unit of the second range. -/
theorem isLowSurrogate_iff {unit : Nat} :
    isLowSurrogate unit = true ↔ 0xDC00 ≤ unit ∧ unit < 0xE000 := by
  simp only [isLowSurrogate, Bool.and_eq_true, decide_eq_true_eq]
  omega

/-- A code unit below the second half of a pair, or above it, is none. -/
theorem isLowSurrogate_eq_false {unit : Nat} (other : unit < 0xDC00 ∨ 0xE000 ≤ unit) :
    isLowSurrogate unit = false := by
  rw [Bool.eq_false_iff, Ne, isLowSurrogate_iff]
  omega

/-- A byte other than a backslash stands for itself. -/
theorem unescape?_plain {byte : UInt8} (unescaped : byte ≠ 0x5C) (body : Bytes) :
    unescape? (byte :: body) = (unescape? body).map (byte :: ·) := by
  rw [unescape?]
  · cases unescape? body <;> rfl
  · intro _ _ _ _ _ same
    exact absurd same unescaped
  · intro _ _ same
    exact absurd same unescaped

/-- An escape of one letter stands for its character. -/
theorem unescape?_letter {letter : UInt8} {c : Char} (known : (letter, c) ∈ letterEscapes)
    (body : Bytes) :
    unescape? (0x5C :: letter :: body) =
      (unescape? body).map (String.utf8EncodeChar c ++ ·) := by
  obtain ⟨ascii, read⟩ := escapedByte?_of_known known
  rw [Text.encodeChar_of_ascii ascii, unescape?]
  · rw [read]
    cases unescape? body <;> rfl
  · intro _ _ _ _ _ same
    rw [same] at read
    exact nomatch read

/-- A code unit that is no half of a pair stands for its character. -/
theorem unescape?_unit {first second third fourth : UInt8} {unit : Nat}
    (spelled : UnitSpelled first second third fourth unit)
    (whole : unit < 0xD800 ∨ 0xE000 ≤ unit) (body : Bytes) :
    unescape? (0x5C :: 0x75 :: first :: second :: third :: fourth :: body) =
      (unescape? body).map (String.utf8EncodeChar (Char.ofNat unit) ++ ·) := by
  have notLow : isLowSurrogate unit = false := isLowSurrogate_eq_false (by omega)
  have notHigh : isHighSurrogate unit = false := by
    rw [Bool.eq_false_iff, Ne, isHighSurrogate_iff]
    omega
  rw [unescape?, codeUnit?_eq_some_iff.2 spelled]
  simp only [bind, Option.bind_some, notLow, notHigh, Bool.false_eq_true, if_false,
    codePointBytes_eq]
  cases unescape? body <;> rfl

/-- The halves of a pair stand for one character. -/
theorem unescape?_pair {a b c d e f g h : UInt8} {high low : Nat}
    (first : UnitSpelled a b c d (0xD800 + high)) (highFits : high < 0x400)
    (second : UnitSpelled e f g h (0xDC00 + low)) (lowFits : low < 0x400) (body : Bytes) :
    unescape? (0x5C :: 0x75 :: a :: b :: c :: d :: 0x5C :: 0x75 :: e :: f :: g :: h :: body) =
      (unescape? body).map
        (String.utf8EncodeChar (Char.ofNat (0x10000 + high * 0x400 + low)) ++ ·) := by
  have notLow : isLowSurrogate (0xD800 + high) = false := isLowSurrogate_eq_false (by omega)
  have isHigh : isHighSurrogate (0xD800 + high) = true := isHighSurrogate_iff.2 (by omega)
  have isLow : isLowSurrogate (0xDC00 + low) = true := isLowSurrogate_iff.2 (by omega)
  rw [unescape?, codeUnit?_eq_some_iff.2 first]
  simp only [bind, Option.bind_some, notLow, isHigh, Bool.false_eq_true, if_false, if_true,
    codeUnit?_eq_some_iff.2 second, isLow, guard, pure, codePointBytes_eq,
    Nat.add_sub_cancel_left]
  cases unescape? body <;> rfl

/-- Bytes without a backslash stand for themselves. -/
theorem unescape?_append {bytes : Bytes} (unescaped : ∀ byte ∈ bytes, byte ≠ 0x5C) (body : Bytes) :
    unescape? (bytes ++ body) = (unescape? body).map (bytes ++ ·) := by
  induction bytes with
  | nil => simp
  | cons byte bytes ih =>
    obtain ⟨head, tail⟩ := List.forall_mem_cons.1 unescaped
    rw [List.cons_append, unescape?_plain head, ih tail, Option.map_map]
    rfl

/-- The bytes of a character are those of no backslash, quote or control character, unless it is
one of these itself. -/
theorem plain_of_mem_encodeChar {c : Char} (visible : 0x20 ≤ c.toNat) (unquoted : c ≠ '"')
    (unescaped : c ≠ '\\') {byte : UInt8} (member : byte ∈ String.utf8EncodeChar c) :
    0x20 ≤ byte.toNat ∧ byte ≠ 0x22 ∧ byte ≠ 0x5C := by
  by_cases ascii : c.toNat < 0x80
  · rw [Text.encodeChar_of_ascii ascii] at member
    obtain rfl := List.mem_singleton.1 member
    have value : (UInt8.ofNat c.toNat).toNat = c.toNat :=
      UInt8.toNat_ofNat_of_lt' (Nat.lt_trans ascii (by decide))
    have apart {other : Char} (different : c ≠ other) : c.toNat ≠ other.toNat := by
      intro same
      exact different (Char.toNat_inj.1 same)
    have quote : c.toNat ≠ 0x22 := apart unquoted
    have backslash : c.toNat ≠ 0x5C := apart unescaped
    refine ⟨by omega, ?_, ?_⟩
    · intro same
      have bytes := congrArg UInt8.toNat same
      rw [value] at bytes
      exact quote bytes
    · intro same
      have bytes := congrArg UInt8.toNat same
      rw [value] at bytes
      exact backslash bytes
  · obtain ⟨lead, tail, shape, leading, inside⟩ := Text.encodeChar_of_beyond (c := c) (by omega)
    have large : 0x80 ≤ byte.toNat := by
      rw [shape] at member
      rcases List.mem_cons.1 member with rfl | later
      · omega
      · exact (inside byte later).1
    refine ⟨by omega, ?_, ?_⟩ <;> rintro rfl <;> exact absurd large (by decide)

/-- What stands for a text decodes to it. -/
theorem unescape?_of_standsFor {body : Bytes} {text : List Char} (stands : StandsFor body text) :
    unescape? body = some (encodeChars text) := by
  induction stands with
  | nil => rfl
  | plain visible unquoted unescaped _ ih =>
    rw [unescape?_append fun byte member =>
      (plain_of_mem_encodeChar visible unquoted unescaped member).2.2, ih]
    simp
  | letter known _ ih =>
    rw [unescape?_letter known, ih]
    simp
  | unit spelled whole _ ih =>
    rw [unescape?_unit spelled whole, ih]
    simp
  | pair first highFits second lowFits _ ih =>
    rw [unescape?_pair first highFits second lowFits, ih]
    simp

/-- The first half of a pair decodes only together with the second half. -/
theorem exists_low_of_unescape? {a b c d : UInt8} {unit : Nat} {body bytes : Bytes}
    (first : UnitSpelled a b c d unit) (high : 0xD800 ≤ unit) (half : unit < 0xE000)
    (proper : IsBody body)
    (decoded : unescape? (0x5C :: 0x75 :: a :: b :: c :: d :: body) = some bytes) :
    unit < 0xDC00 ∧ ∃ e f g h low rest,
      body = 0x5C :: 0x75 :: e :: f :: g :: h :: rest ∧ low < 0x400 ∧
      UnitSpelled e f g h (0xDC00 + low) ∧ IsBody rest := by
  have upper : unit < 0xDC00 := by
    by_contra lower
    have isLow : isLowSurrogate unit = true := isLowSurrogate_iff.2 (by omega)
    rw [unescape?, codeUnit?_eq_some_iff.2 first] at decoded
    simp [bind, isLow] at decoded
  have notLow : isLowSurrogate unit = false := isLowSurrogate_eq_false (.inl upper)
  have isHigh : isHighSurrogate unit = true := isHighSurrogate_iff.2 ⟨high, upper⟩
  rw [unescape?, codeUnit?_eq_some_iff.2 first] at decoded
  simp only [bind, Option.bind_some, notLow, isHigh, Bool.false_eq_true, if_false, if_true]
    at decoded
  refine ⟨upper, ?_⟩
  cases proper with
  | nil => exact absurd decoded (by simp)
  | plain _ _ unescaped _ =>
    split at decoded
    · next same => exact absurd (List.cons.inj same).1 unescaped
    · exact absurd decoded (by simp)
  | letter known _ =>
    split at decoded
    · next same =>
      obtain ⟨rfl, -⟩ := List.cons.inj (List.cons.inj same).2
      exact nomatch (escapedByte?_of_known known).2
    · exact absurd decoded (by simp)
  | @unit e f g h next rest second proper =>
    simp only [codeUnit?_eq_some_iff.2 second, Option.bind_some] at decoded
    have isLow : isLowSurrogate next = true := by
      by_contra other
      simp [other, guard, failure] at decoded
    obtain ⟨low, below⟩ := isLowSurrogate_iff.1 isLow
    refine ⟨e, f, g, h, next - 0xDC00, rest, rfl, by omega, ?_, proper⟩
    rwa [Nat.add_sub_cancel' low]

/-- A body that decodes is empty, or begins with a byte that stands for itself, or with an escape
that stands for a character. -/
theorem decoded_cases {body bytes : Bytes} (proper : IsBody body)
    (decoded : unescape? body = some bytes) :
    (body = [] ∧ bytes = []) ∨
    (∃ byte rest more, body = byte :: rest ∧ bytes = byte :: more ∧
      (0x20 ≤ byte.toNat ∧ byte ≠ 0x22 ∧ byte ≠ 0x5C) ∧
      IsBody rest ∧ unescape? rest = some more) ∨
    ∃ c rest more, rest.length < body.length ∧ bytes = String.utf8EncodeChar c ++ more ∧
      (∀ text, StandsFor rest text → StandsFor body (c :: text)) ∧
      IsBody rest ∧ unescape? rest = some more := by
  cases proper with
  | nil => exact .inl ⟨rfl, (Option.some.inj decoded).symm⟩
  | @plain byte rest visible unquoted unescaped proper =>
    rw [unescape?_plain unescaped] at decoded
    obtain ⟨more, tail, rfl⟩ := Option.map_eq_some_iff.1 decoded
    exact .inr (.inl ⟨byte, rest, more, rfl, rfl, ⟨visible, unquoted, unescaped⟩, proper, tail⟩)
  | @letter letter c rest known proper =>
    rw [unescape?_letter known] at decoded
    obtain ⟨more, tail, rfl⟩ := Option.map_eq_some_iff.1 decoded
    exact .inr (.inr ⟨c, rest, more, by simp only [List.length_cons]; omega, rfl,
        fun text => .letter known, proper, tail⟩)
  | @unit first second third fourth unit rest spelled proper =>
    by_cases whole : unit < 0xD800 ∨ 0xE000 ≤ unit
    · rw [unescape?_unit spelled whole] at decoded
      obtain ⟨more, tail, rfl⟩ := Option.map_eq_some_iff.1 decoded
      exact .inr (.inr ⟨_, rest, more, by simp only [List.length_cons]; omega, rfl,
        fun text => .unit spelled whole, proper, tail⟩)
    · obtain ⟨upper, e, f, g, h, low, rest, rfl, lowFits, last, proper⟩ :=
        exists_low_of_unescape? spelled (by omega) (by omega) proper decoded
      obtain ⟨high, rfl⟩ : ∃ high, unit = 0xD800 + high := ⟨unit - 0xD800, by omega⟩
      have highFits : high < 0x400 := by omega
      rw [unescape?_pair spelled highFits last lowFits] at decoded
      obtain ⟨more, tail, rfl⟩ := Option.map_eq_some_iff.1 decoded
      exact .inr (.inr ⟨_, rest, more, by simp only [List.length_cons]; omega, rfl,
        fun text => .pair spelled highFits last lowFits, proper, tail⟩)

/-- Continuation bytes of a decoded body stand in the body as they are: an escape never continues a
character. -/
theorem exists_of_continuation {tail : Bytes} (inside : ∀ byte ∈ tail, Text.IsContinuation byte)
    {body bytes : Bytes} (proper : IsBody body)
    (decoded : unescape? body = some (tail ++ bytes)) :
    ∃ rest, body = tail ++ rest ∧ IsBody rest ∧ unescape? rest = some bytes := by
  induction tail generalizing body with
  | nil => exact ⟨body, rfl, proper, decoded⟩
  | cons byte tail ih =>
    obtain ⟨head, inside⟩ := List.forall_mem_cons.1 inside
    rcases decoded_cases proper decoded with ⟨-, empty⟩ |
      ⟨first, rest, more, rfl, same, -, properRest, decodedRest⟩ | ⟨c, rest, more, -, same, -⟩
    · exact nomatch empty
    · obtain ⟨rfl, rfl⟩ := List.cons.inj same
      obtain ⟨last, rfl, found⟩ := ih inside properRest decodedRest
      exact ⟨last, rfl, found⟩
    · exact absurd same.symm (Text.encodeChar_ne_continuation head)

/-- Where a byte stands for itself, the whole character that it begins stands for itself. -/
theorem exists_of_plain {byte : UInt8} {rest more bytes : Bytes} {c : Char}
    (plain : 0x20 ≤ byte.toNat ∧ byte ≠ 0x22 ∧ byte ≠ 0x5C) (proper : IsBody rest)
    (decoded : unescape? rest = some more)
    (same : String.utf8EncodeChar c ++ bytes = byte :: more) :
    ∃ last, byte :: rest = String.utf8EncodeChar c ++ last ∧
      (0x20 ≤ c.toNat ∧ c ≠ '"' ∧ c ≠ '\\') ∧ IsBody last ∧ unescape? last = some bytes := by
  by_cases ascii : c.toNat < 0x80
  · rw [Text.encodeChar_of_ascii ascii] at same ⊢
    obtain ⟨rfl, rfl⟩ := List.cons.inj same
    have value : (UInt8.ofNat c.toNat).toNat = c.toNat :=
      UInt8.toNat_ofNat_of_lt' (Nat.lt_trans ascii (by decide))
    refine ⟨rest, rfl, ⟨value ▸ plain.1, ?_, ?_⟩, proper, decoded⟩
    · rintro rfl
      exact plain.2.1 rfl
    · rintro rfl
      exact plain.2.2 rfl
  · obtain ⟨lead, tail, shape, leading, inside⟩ := Text.encodeChar_of_beyond (c := c) (by omega)
    rw [shape] at same ⊢
    obtain ⟨rfl, rfl⟩ := List.cons.inj same
    obtain ⟨last, rfl, properLast, decodedLast⟩ := exists_of_continuation inside proper decoded
    have apart {other : Char} (small : other.toNat < 0x80) : c ≠ other := by
      rintro rfl
      exact ascii small
    exact ⟨last, rfl, ⟨by omega, apart (by decide), apart (by decide)⟩, properLast, decodedLast⟩

/-- A body decodes to the bytes of a text only if it stands for the text. -/
theorem standsFor_of_unescape? {body : Bytes} {text : List Char} (proper : IsBody body)
    (decoded : unescape? body = some (encodeChars text)) : StandsFor body text := by
  -- A character may take several bytes, so the induction is on the length and not on the grammar.
  induction size : body.length using Nat.strongRecOn generalizing body text
  next size ih =>
  subst size
  have nonempty (c : Char) : String.utf8EncodeChar c ≠ [] := String.utf8EncodeChar_ne_nil
  rcases decoded_cases proper decoded with ⟨rfl, empty⟩ |
    ⟨byte, rest, more, rfl, same, plain, properRest, decodedRest⟩ |
    ⟨c, rest, more, shorter, same, stands, properRest, decodedRest⟩
  · cases text with
    | nil => exact .nil
    | cons c text => exact absurd (List.append_eq_nil_iff.1 empty).1 (nonempty c)
  · cases text with
    | nil => exact nomatch same
    | cons c text =>
      obtain ⟨last, split, ⟨visible, unquoted, unescaped⟩, properLast, decodedLast⟩ :=
        exists_of_plain plain properRest decodedRest same
      have shorter : last.length < (byte :: rest).length := by
        have some := List.length_pos_iff.2 (nonempty c)
        rw [split, List.length_append]
        omega
      rw [split]
      exact .plain visible unquoted unescaped (ih last.length shorter properLast decodedLast rfl)
  · cases text with
    | nil => exact absurd (List.append_eq_nil_iff.1 same.symm).1 (nonempty c)
    | cons d text =>
      rw [Text.encodeChars_cons] at same
      obtain ⟨rfl, rfl⟩ := Text.encodeChar_append_inj same
      exact stands text (ih rest.length shorter properRest decodedRest rfl)

/-- A string decodes to a text exactly when it stands for it. -/
theorem decode?_eq_some_iff {body : Bytes} (proper : IsBody body) {text : String} :
    decode? body = some text ↔ StandsFor body text.toList := by
  rw [decode?, Option.bind_eq_some_iff]
  constructor
  · rintro ⟨bytes, decoded, whole⟩
    rw [Text.decodeUtf8?_eq_some_iff.1 whole, Text.encodeUtf8_eq] at decoded
    exact standsFor_of_unescape? proper decoded
  · intro stands
    refine ⟨encodeChars text.toList, unescape?_of_standsFor stands, ?_⟩
    rw [Text.decodeUtf8?_eq_some_iff, Text.encodeUtf8_eq]

/-- What stands for a text may stand between quotes. -/
theorem StandsFor.isBody {body : Bytes} {text : List Char} (stands : StandsFor body text) :
    IsBody body := by
  induction stands with
  | nil => exact .nil
  | @plain c body text visible unquoted unescaped _ ih =>
    have plain : ∀ byte ∈ String.utf8EncodeChar c, 0x20 ≤ byte.toNat ∧ byte ≠ 0x22 ∧ byte ≠ 0x5C :=
      fun byte member => plain_of_mem_encodeChar visible unquoted unescaped member
    generalize String.utf8EncodeChar c = bytes at plain
    induction bytes with
    | nil => exact ih
    | cons byte bytes more =>
      obtain ⟨⟨seen, unquoted, unescaped⟩, plain⟩ := List.forall_mem_cons.1 plain
      exact .plain seen unquoted unescaped (more plain)
  | letter known _ ih => exact .letter known ih
  | unit spelled _ _ ih => exact .unit spelled ih
  | pair first _ second _ _ ih => exact .unit first (.unit second ih)

/-- A string stands for one text at most. -/
theorem StandsFor.unique {body : Bytes} {first second : List Char} (one : StandsFor body first)
    (other : StandsFor body second) : first = second := by
  have decoded := unescape?_of_standsFor one
  rw [unescape?_of_standsFor other] at decoded
  exact (Text.encodeChars_injective (Option.some.inj decoded)).symm

/-! ## Writing -/

/-- The digit that is written for a value below 16 is one byte, a hexadecimal digit of that value. -/
theorem hexDigit_spelled {value : Nat} (small : value < 16) :
    (hexDigit value).toNat < 0x80 ∧ HexDigit (UInt8.ofNat (hexDigit value).toNat) value := by
  have all : ∀ value, value < 16 → (hexDigit value).toNat < 0x80 ∧
      HexDigit (UInt8.ofNat (hexDigit value).toNat) value := by
    unfold HexDigit
    decide
  exact all value small

/-- A written character stands for itself. -/
theorem StandsFor.escape {body : Bytes} {text : List Char} (c : Char)
    (stands : StandsFor body text) : StandsFor (encodeChars (Json.escape c) ++ body) (c :: text) := by
  have known {letter : UInt8} {d : Char} (known : (letter, d) ∈ letterEscapes) :
      StandsFor (0x5C :: letter :: body) (d :: text) := .letter known stands
  unfold Json.escape
  split_ifs with quote backslash back feed line carriage tab control
  · subst quote
    exact known (by decide)
  · subst backslash
    exact known (by decide)
  · subst back
    exact known (by decide)
  · subst feed
    exact known (by decide)
  · subst line
    exact known (by decide)
  · subst carriage
    exact known (by decide)
  · subst tab
    exact known (by decide)
  · obtain ⟨highAscii, high⟩ := hexDigit_spelled (show c.toNat / 16 < 16 by omega)
    obtain ⟨lowAscii, low⟩ := hexDigit_spelled (show c.toNat % 16 < 16 by omega)
    have zero : HexDigit 0x30 0 := .inl ⟨by decide, by decide⟩
    have spelled : UnitSpelled 0x30 0x30 (UInt8.ofNat (hexDigit (c.toNat / 16)).toNat)
        (UInt8.ofNat (hexDigit (c.toNat % 16)).toNat) c.toNat :=
      ⟨0, 0, c.toNat / 16, c.toNat % 16, zero, zero, high, low, by omega⟩
    have written := StandsFor.unit spelled (.inl (by omega)) stands
    rw [Char.ofNat_toNat] at written
    simp only [Text.encodeChars_cons, Text.encodeChars_nil, Text.encodeChar_of_ascii highAscii,
      Text.encodeChar_of_ascii lowAscii, List.append_nil]
    exact written
  · rw [Text.encodeChars_cons, Text.encodeChars_nil, List.append_nil]
    exact .plain (by omega) quote backslash stands

/-- Control characters are never written. -/
theorem visible_of_mem_escape (c : Char) : ∀ written ∈ escape c, 0x20 ≤ written.toNat := by
  have digits : ∀ value, value < 16 → 0x20 ≤ (hexDigit value).toNat := by decide
  unfold escape
  split_ifs with quote backslash back feed line carriage tab control
  · simp
  · simp
  · simp
  · simp
  · simp
  · simp
  · simp
  · have high := digits (c.toNat / 16) (by omega)
    have low := digits (c.toNat % 16) (by omega)
    simp [high, low]
  · rw [List.forall_mem_singleton]
    omega

/-- A quoted text stands on one line. -/
theorem newline_not_mem_quote (text : List Char) : '\n' ∉ quote text := by
  intro member
  simp only [quote, List.mem_cons, List.mem_append, List.mem_flatMap, List.not_mem_nil,
    or_false] at member
  rcases member with first | ⟨c, -, written⟩ | last
  · exact absurd first (by decide)
  · exact absurd (visible_of_mem_escape c '\n' written) (by decide)
  · exact absurd last (by decide)

/-- The bytes that are written between the quotes of a text. -/
def escaped (text : List Char) : Bytes :=
  encodeChars (text.flatMap escape)

/-- A written text stands for itself. -/
theorem standsFor_escaped (text : List Char) : StandsFor (escaped text) text := by
  induction text with
  | nil => exact .nil
  | cons c text ih =>
    rw [escaped, List.flatMap_cons, Text.encodeChars_append]
    exact ih.escape c

end BuildMatrix.Json
