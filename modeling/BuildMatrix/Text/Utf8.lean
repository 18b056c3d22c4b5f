/-!
# UTF-8

Files and network bodies are lists of bytes; those that are well-formed UTF-8 are texts. Encoding a
text and decoding it gives the text back, and only encodings decode.
-/

namespace BuildMatrix

/-- The content of a file or the body of a response. -/
abbrev Bytes := List UInt8

namespace Text

/-- The bytes of a text. -/
def encodeUtf8 (text : String) : Bytes :=
  text.toByteArray.data.toList

/-- The text that bytes encode, if they are well-formed. -/
def decodeUtf8? (bytes : Bytes) : Option String :=
  String.fromUTF8? ⟨bytes.toArray⟩

/-- Bytes decode to a text exactly when they are its encoding. -/
theorem decodeUtf8?_eq_some_iff {bytes : Bytes} {text : String} :
    decodeUtf8? bytes = some text ↔ bytes = encodeUtf8 text := by
  unfold decodeUtf8? String.fromUTF8? encodeUtf8
  constructor
  · intro decoded
    split at decoded
    · next valid =>
      simp only [Option.some.injEq] at decoded
      subst decoded
      rfl
    · exact absurd decoded (by simp)
  · rintro rfl
    have valid : ByteArray.IsValidUTF8 ⟨text.toByteArray.data.toList.toArray⟩ := text.isValidUTF8
    rw [dif_pos valid]
    rfl

end Text

end BuildMatrix
