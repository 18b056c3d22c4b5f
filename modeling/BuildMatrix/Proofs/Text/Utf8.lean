import BuildMatrix.Text.Utf8
import Mathlib.Data.List.Basic

/-!
# Encoded characters

The bytes of a text are those of its characters in turn. A character below U+0080 is its own byte;
any other one is a leading byte and continuation bytes, so no character's bytes begin those of
another one, and none begins inside another one.
-/

namespace BuildMatrix.Text

/-- A byte that can only stand inside the encoding of a character. -/
def IsContinuation (byte : UInt8) : Prop :=
  0x80 ≤ byte.toNat ∧ byte.toNat < 0xC0

/-- The bytes of characters, one after another. -/
def encodeChars (chars : List Char) : Bytes :=
  chars.flatMap String.utf8EncodeChar

/-- An empty run of characters has no bytes. -/
@[simp]
theorem encodeChars_nil : encodeChars [] = [] := rfl

/-- The bytes of characters are those of the first one and then those of the rest. -/
@[simp]
theorem encodeChars_cons (c : Char) (chars : List Char) :
    encodeChars (c :: chars) = String.utf8EncodeChar c ++ encodeChars chars :=
  List.flatMap_cons

/-- The bytes of two runs of characters are those of the one and then of the other. -/
@[simp]
theorem encodeChars_append (first second : List Char) :
    encodeChars (first ++ second) = encodeChars first ++ encodeChars second :=
  List.flatMap_append

/-- The bytes of a text are those of its characters. -/
theorem encodeUtf8_eq (text : String) : encodeUtf8 text = encodeChars text.toList := by
  have bytes : text.toByteArray = text.toList.utf8Encode := by
    rw [← String.toByteArray_ofList, String.ofList_toList]
  rw [encodeUtf8, bytes, List.utf8Encode, List.data_toByteArray]
  rfl

/-- A text that is made of characters has their bytes. -/
theorem encodeUtf8_ofList (chars : List Char) :
    encodeUtf8 (String.ofList chars) = encodeChars chars := by
  rw [encodeUtf8_eq, String.toList_ofList]

/-- A character below U+0080 is its own byte. -/
theorem encodeChar_of_ascii {c : Char} (ascii : c.toNat < 0x80) :
    String.utf8EncodeChar c = [UInt8.ofNat c.toNat] := by
  have small : c.val.toNat ≤ 127 := by
    show c.toNat ≤ 127
    omega
  rw [String.utf8EncodeChar.eq_1, if_pos small]
  rfl

/-- Any other character is a leading byte and continuation bytes. -/
theorem encodeChar_of_beyond {c : Char} (beyond : 0x80 ≤ c.toNat) :
    ∃ lead tail, String.utf8EncodeChar c = lead :: tail ∧ 0xC0 ≤ lead.toNat ∧
      ∀ byte ∈ tail, IsContinuation byte := by
  have large : ¬ c.val.toNat ≤ 127 := by
    show ¬ c.toNat ≤ 127
    omega
  have continuation (value : Nat) : IsContinuation (UInt8.ofNat (value % 64 + 128)) := by
    rw [IsContinuation, UInt8.toNat_ofNat']
    omega
  rw [String.utf8EncodeChar.eq_1, if_neg large]
  split_ifs with two three
  · refine ⟨_, _, rfl, ?_, List.forall_mem_singleton.2 (continuation _)⟩
    rw [UInt8.toNat_ofNat']
    omega
  · refine ⟨_, _, rfl, ?_, List.forall_mem_cons.2
      ⟨continuation _, List.forall_mem_singleton.2 (continuation _)⟩⟩
    rw [UInt8.toNat_ofNat']
    omega
  · refine ⟨_, _, rfl, ?_, List.forall_mem_cons.2 ⟨continuation _, List.forall_mem_cons.2
      ⟨continuation _, List.forall_mem_singleton.2 (continuation _)⟩⟩⟩
    rw [UInt8.toNat_ofNat']
    omega

/-- Where a character's bytes begin, nothing else begins. -/
theorem encodeChar_append_inj {c d : Char} {first second : Bytes}
    (same : String.utf8EncodeChar c ++ first = String.utf8EncodeChar d ++ second) :
    c = d ∧ first = second := by
  have arrays : (String.utf8EncodeChar c).toByteArray ++ first.toByteArray =
      (String.utf8EncodeChar d).toByteArray ++ second.toByteArray := by
    rw [← List.toByteArray_append, ← List.toByteArray_append, same]
  have read := ByteArray.utf8DecodeChar?_utf8EncodeChar_append
    (b := first.toByteArray) (c := c)
  rw [arrays, ByteArray.utf8DecodeChar?_utf8EncodeChar_append] at read
  obtain rfl : d = c := Option.some.inj read
  exact ⟨rfl, List.append_cancel_left same⟩

/-- No character begins with a continuation byte. -/
theorem encodeChar_ne_continuation {c : Char} {byte : UInt8} {first second : Bytes}
    (inside : IsContinuation byte) : String.utf8EncodeChar c ++ first ≠ byte :: second := by
  intro same
  by_cases ascii : c.toNat < 0x80
  · rw [encodeChar_of_ascii ascii] at same
    obtain ⟨rfl, -⟩ := List.cons.inj same
    have range := inside.1
    rw [UInt8.toNat_ofNat'] at range
    omega
  · obtain ⟨lead, tail, shape, leading, -⟩ := encodeChar_of_beyond (c := c) (by omega)
    rw [shape] at same
    obtain ⟨rfl, -⟩ := List.cons.inj same
    have range := inside.2
    omega

/-- The characters are known by their bytes. -/
theorem encodeChars_injective {first second : List Char}
    (same : encodeChars first = encodeChars second) : first = second := by
  have texts : encodeUtf8 (String.ofList first) = encodeUtf8 (String.ofList second) := by
    rw [encodeUtf8_ofList, encodeUtf8_ofList, same]
  have decoded := decodeUtf8?_eq_some_iff.2 texts
  rw [decodeUtf8?_eq_some_iff.2 rfl] at decoded
  exact String.ofList_injective (Option.some.inj decoded)

end BuildMatrix.Text
