import BuildMatrix.Proofs.Constraint.Reading
import BuildMatrix.Proofs.Json.Writing
import BuildMatrix.Version.Decoding

/-!
# Texts of versions and clauses

Both readers of versions trim a text and accept what is left exactly when it is spelled as their
grammar has it; what they refuse they name. The strict grammar is the part without a patch of the
other one. A clause is an operator with a version directly after it. Everything that is written, a
version, its JSON string or a clause, is read back, so versions with the same text are the same.
-/

namespace BuildMatrix

/-! ## The two readers of versions -/

/-- The reader accepts a text when what trimming leaves of it is spelled as a version, with that
version, and names what trimming leaves of any other text. -/
structure Version.ReadsTrimmed (read : String → Except VersionError Version)
    (spelled : List Char → Version → Prop) : Prop where
  /-- What is read is what the trimmed text spells. -/
  accepts : ∀ text version, read text = .ok version ↔ spelled (Text.trim text.toList) version
  /-- What is refused is named. -/
  refuses : ∀ text cause, read text = .error cause →
    cause = .malformed (String.ofList (Text.trim text.toList))

namespace Version

/-- The strict reader takes two words with a dot between them. -/
theorem readsTrimmed_parse : ReadsTrimmed parse Spelled where
  accepts _ _ := parse_eq_ok_iff
  refuses _ _ refused := (parse_eq_error_iff.1 refused).2

/-- The text is a version, perhaps with a patch after it. -/
def SpelledWithPatch (text : List Char) (version : Version) : Prop :=
  ∃ release : Release, release.Spelled text ∧ release.version = version

/-- The other reader takes a patch as well, and drops it. -/
theorem readsTrimmed_parseTruncating : ReadsTrimmed parseTruncating SpelledWithPatch where
  accepts text version := by
    unfold parseTruncating SpelledWithPatch
    dsimp only
    constructor
    · intro read
      split at read
      · next release found =>
        have spelled := Release.ofChars?_eq_some_iff.1 found
        exact ⟨release, spelled, Except.ok.inj read⟩
      · exact nomatch read
    · rintro ⟨release, spelled, rfl⟩
      rw [Release.ofChars?_eq_some_iff.2 spelled]
  refuses text cause refused := by
    unfold parseTruncating at refused
    dsimp only at refused
    split at refused
    · exact nomatch refused
    · exact (Except.error.inj refused).symm

/-- What the strict reader reads, the other one reads as the same version. -/
theorem parseTruncating_of_parse {text : String} {version : Version}
    (read : parse text = .ok version) : parseTruncating text = .ok version := by
  have spelled := parse_eq_ok_iff.1 read
  apply (readsTrimmed_parseTruncating.accepts text version).2
  exact ⟨⟨version, none⟩, .plain spelled, rfl⟩

/-- A text without white space is read when it spells a version as it is. -/
theorem parse_of_solid {operand : List Char} {version : Version}
    (solid : Text.isSolid operand = true) :
    parse (String.ofList operand) = .ok version ↔ version.Spelled operand := by
  rw [parse_eq_ok_iff, String.toList_ofList, Text.trim_eq_self solid]

/-- The JSON string of a version is a JSON text, and the version is read from its value. -/
theorem ofTree_of_quoted (version : Version) :
    ∃ tree, Json.read? (Text.encodeUtf8 version.quoted) = some tree ∧ ofTree tree = .ok version := by
  have written := Json.written_quote version.chars
  have text := written.isText Json.isBlank_nil
  have stands := Json.standsFor_escaped version.chars
  have decoded : Json.decode? (Json.escaped version.chars) = some version.render := by
    apply (Json.decode?_eq_some_iff stands.isBody).2
    rw [render, String.toList_ofList]
    exact stands
  rw [List.append_nil] at text
  refine ⟨.string (Json.escaped version.chars), ?_, ?_⟩
  · rw [quoted, Text.encodeUtf8_ofList]
    exact Json.read?_eq_some_iff.2 text
  · rw [ofTree, decoded]
    show (parse version.render).mapError DecodingError.malformed = .ok version
    rw [parse_render]
    rfl

end Version

/-! ## Clauses -/

namespace Clause

/-- A clause is read from an operator and a version without white space directly after it. -/
theorem parse_eq_ok_iff {text : String} {clause : Clause} :
    parse text = .ok clause ↔
      ∃ operand, Text.trim text.toList = clause.comparator.symbol ++ operand ∧
        Text.isSolid operand = true ∧ Version.parse (String.ofList operand) = .ok clause.version := by
  rw [parse, ofChars_eq_ok_iff, Spelled]
  constructor
  · rintro ⟨operand, split, spelled⟩
    have solid := spelled.solid
    exact ⟨operand, split, solid, (Version.parse_of_solid solid).2 spelled⟩
  · rintro ⟨operand, split, solid, read⟩
    exact ⟨operand, split, (Version.parse_of_solid solid).1 read⟩

/-- A clause is read back from its text. -/
theorem parse_render (clause : Clause) : parse clause.render = .ok clause := by
  have trimmed := Text.trim_eq_self clause.isSolid_chars
  rw [parse, render, String.toList_ofList, trimmed]
  exact clause.ofChars_chars

end Clause

/-! ## All texts -/

/-- The strict reader of versions takes exactly two words with a dot between them, the other one a
patch after them as well, which it drops; both trim white space and name the trimmed text of what
they refuse, and the second reads whatever the first one reads as the same version. A clause is read
exactly from an operator with a version that the strict reader takes directly after it. Every
version is read back by both readers and from its JSON string, and every clause from its text; and
no two versions have the same text. -/
theorem texts_read_exactly :
    Version.ReadsTrimmed Version.parse Version.Spelled ∧
    Version.ReadsTrimmed Version.parseTruncating Version.SpelledWithPatch ∧
    (∀ text version, Version.parse text = .ok version →
      Version.parseTruncating text = .ok version) ∧
    (∀ text clause, Clause.parse text = .ok clause ↔
      ∃ operand, Text.trim text.toList = clause.comparator.symbol ++ operand ∧
        Text.isSolid operand = true ∧
        Version.parse (String.ofList operand) = .ok clause.version) ∧
    (∀ version : Version, Version.parse version.render = .ok version ∧
      Version.parseTruncating version.render = .ok version ∧
      ∃ tree, Json.read? (Text.encodeUtf8 version.quoted) = some tree ∧
        Version.ofTree tree = .ok version) ∧
    (∀ clause : Clause, Clause.parse clause.render = .ok clause) ∧
    ∀ first second : Version, first.render = second.render → first = second := by
  refine ⟨Version.readsTrimmed_parse, Version.readsTrimmed_parseTruncating,
    fun _ _ read => Version.parseTruncating_of_parse read, fun _ _ => Clause.parse_eq_ok_iff, ?_,
    Clause.parse_render, fun _ _ same => Version.render_inj.1 same⟩
  intro version
  have read := version.parse_render
  exact ⟨read, Version.parseTruncating_of_parse read, version.ofTree_of_quoted⟩

end BuildMatrix
