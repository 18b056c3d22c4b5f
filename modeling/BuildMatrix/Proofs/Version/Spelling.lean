import BuildMatrix.Version.Reading
import BuildMatrix.Proofs.Text.Fields
import BuildMatrix.Proofs.Text.WhiteSpace

/-!
# Spellings of versions

The grammar of version texts, stated on the characters alone: a word is a run of ASCII digits with
any number of leading zeros whose value fits, a version is two words with a dot between them, and a
release may have a third component, a run of decimal digits of any script and any size. The readers
of versions and releases accept exactly these spellings, each with the version it denotes.
-/

namespace BuildMatrix

/-- The text is a run of ASCII digits that denotes the word. -/
structure WordSpelled (digits : List Char) (word : UInt32) : Prop where
  /-- There is a digit. -/
  nonempty : digits ≠ []
  /-- Every character is an ASCII digit. -/
  ascii : ∀ c ∈ digits, c.isDigit = true
  /-- The digits denote the word, so their value fits in one. -/
  value : Nat.ofDigitChars 10 digits 0 = word.toNat

/-- The text is two words with a dot between them. -/
def Version.Spelled (text : List Char) (version : Version) : Prop :=
  ∃ major minor, text = major ++ '.' :: minor ∧
    WordSpelled major version.major ∧ WordSpelled minor version.minor

/-- The text is a version, or a version with a dot and a patch after it. -/
inductive Release.Spelled : List Char → Release → Prop
  /-- A version without a patch. -/
  | plain {text : List Char} {version : Version} (spelled : Version.Spelled text version) :
      Release.Spelled text ⟨version, none⟩
  /-- A version with a patch of decimal digits of any script. -/
  | patched {text patch : List Char} {version : Version} (spelled : Version.Spelled text version)
      (nonempty : patch ≠ []) (decimal : ∀ c ∈ patch, Text.isDecimalDigit c = true) :
      Release.Spelled (text ++ '.' :: patch) ⟨version, some patch⟩

/-! ## Characters of a spelling -/

/-- A decimal digit is none of the characters that separate digits from each other. -/
theorem decimal_ne {c : Char} (decimal : Text.isDecimalDigit c = true) :
    c ≠ '.' ∧ c ≠ '=' ∧ c ≠ '*' := by
  refine ⟨?_, ?_, ?_⟩ <;> rintro rfl <;> exact absurd decimal (by decide)

namespace WordSpelled

variable {digits : List Char} {word : UInt32}

/-- The digits of a word are decimal digits. -/
theorem decimal (spelled : WordSpelled digits word) :
    ∀ c ∈ digits, Text.isDecimalDigit c = true :=
  fun c member => Text.isDecimalDigit_of_isDigit (spelled.ascii c member)

/-- No dot is among the digits of a word. -/
theorem dot_not_mem (spelled : WordSpelled digits word) : '.' ∉ digits :=
  fun member => (decimal_ne (spelled.decimal '.' member)).1 rfl

end WordSpelled

/-! ## Readers -/

/-- The reader of words accepts exactly their spellings. -/
theorem readWord?_eq_some_iff {digits : List Char} {word : UInt32} :
    readWord? digits = some word ↔ WordSpelled digits word := by
  constructor
  · intro read
    obtain ⟨value, numeral, fits⟩ := Option.bind_eq_some_iff.1 read
    have shape : Text.isNumeral digits = true ∧ Text.numeralValue digits = value := by
      simpa [Text.readNumeral?] using numeral
    have bound : value < UInt32.size ∧ UInt32.ofNat value = word := by simpa using fits
    obtain ⟨run, rfl⟩ := shape
    obtain ⟨small, rfl⟩ := bound
    simp only [Text.isNumeral, Bool.and_eq_true, Bool.not_eq_true', List.isEmpty_eq_false_iff,
      List.all_eq_true] at run
    refine ⟨run.1, run.2, ?_⟩
    exact (Nat.mod_eq_of_lt small).symm
  · intro spelled
    have run : Text.isNumeral digits = true := by
      simpa [Text.isNumeral] using ⟨spelled.nonempty, spelled.ascii⟩
    have fits : word.toNat < UInt32.size := word.toNat_lt
    have value : Text.numeralValue digits = word.toNat := spelled.value
    simp [readWord?, Text.readNumeral?, run, value, fits]

/-- Two components with a dot between them are a version exactly when both are words. -/
theorem Version.ofComponents?_eq_some_iff {major minor : List Char} {version : Version} :
    Version.ofComponents? major minor = some version ↔
      WordSpelled major version.major ∧ WordSpelled minor version.minor := by
  rw [← readWord?_eq_some_iff, ← readWord?_eq_some_iff, Version.ofComponents?]
  constructor
  · intro read
    obtain ⟨series, first, rest⟩ := Option.bind_eq_some_iff.1 read
    obtain ⟨release, second, rfl⟩ := Option.map_eq_some_iff.1 rest
    exact ⟨first, second⟩
  · rintro ⟨first, second⟩
    simp [first, second]

/-- The reader of versions accepts exactly their spellings. -/
theorem Version.ofChars?_eq_some_iff {text : List Char} {version : Version} :
    Version.ofChars? text = some version ↔ Version.Spelled text version := by
  constructor
  · intro read
    rw [Version.ofChars?] at read
    split at read
    · next major minor parts =>
      exact ⟨major, minor, (Text.splitOn_eq_pair_iff.1 parts).1,
        Version.ofComponents?_eq_some_iff.1 read⟩
    · cases read
  · rintro ⟨major, minor, rfl, series, release⟩
    have parts := Text.splitOn_eq_pair_iff.2 ⟨rfl, series.dot_not_mem, release.dot_not_mem⟩
    rw [Version.ofChars?, parts]
    exact Version.ofComponents?_eq_some_iff.2 ⟨series, release⟩

/-- A run of decimal digits is not empty and holds nothing else. -/
theorem isDigitRun_iff {text : List Char} :
    Text.isDigitRun text = true ↔ text ≠ [] ∧ ∀ c ∈ text, Text.isDecimalDigit c = true := by
  simp [Text.isDigitRun]

/-- The reader of releases accepts exactly their spellings. -/
theorem Release.ofChars?_eq_some_iff {text : List Char} {release : Release} :
    Release.ofChars? text = some release ↔ Release.Spelled text release := by
  constructor
  · intro read
    rw [Release.ofChars?] at read
    split at read
    · next major minor parts =>
      obtain ⟨version, both, rfl⟩ := Option.map_eq_some_iff.1 read
      obtain ⟨rfl, -⟩ := Text.splitOn_eq_pair_iff.1 parts
      exact .plain ⟨major, minor, rfl, Version.ofComponents?_eq_some_iff.1 both⟩
    · next major minor patch parts =>
      split at read
      · next run =>
        obtain ⟨version, both, rfl⟩ := Option.map_eq_some_iff.1 read
        obtain ⟨rfl, -⟩ := Text.splitOn_eq_triple_iff.1 parts
        obtain ⟨nonempty, decimal⟩ := isDigitRun_iff.1 run
        exact .patched ⟨major, minor, rfl, Version.ofComponents?_eq_some_iff.1 both⟩ nonempty decimal
      · cases read
    · cases read
  · rintro (⟨major, minor, rfl, series, minorWord⟩ |
      ⟨⟨major, minor, rfl, series, minorWord⟩, nonempty, decimal⟩)
    · have parts := Text.splitOn_eq_pair_iff.2 ⟨rfl, series.dot_not_mem, minorWord.dot_not_mem⟩
      rw [Release.ofChars?, parts]
      simp [Version.ofComponents?_eq_some_iff.2 ⟨series, minorWord⟩]
    · next patch version =>
      have dotless : '.' ∉ patch := fun member => (decimal_ne (decimal '.' member)).1 rfl
      have parts := Text.splitOn_eq_triple_iff.2
        ⟨rfl, series.dot_not_mem, minorWord.dot_not_mem, dotless⟩
      rw [Release.ofChars?, parts]
      simp [isDigitRun_iff.2 ⟨nonempty, decimal⟩,
        Version.ofComponents?_eq_some_iff.2 ⟨series, minorWord⟩]

/-- A release without a patch is a version. -/
theorem Release.Spelled.version {text : List Char} {release : Release}
    (spelled : Release.Spelled text release) (unpatched : release.patch = none) :
    Version.Spelled text release.version := by
  cases spelled with
  | plain version => exact version
  | patched => exact nomatch unpatched

/-- A version begins with an ASCII digit. -/
theorem Version.Spelled.head {text : List Char} {version : Version}
    (spelled : Version.Spelled text version) : ∃ c rest, text = c :: rest ∧ c.isDigit = true := by
  obtain ⟨major, minor, rfl, series, -⟩ := spelled
  cases major with
  | nil => exact absurd rfl series.nonempty
  | cons c digits => exact ⟨c, digits ++ '.' :: minor, rfl, series.ascii c (by simp)⟩

/-- A release begins with an ASCII digit. -/
theorem Release.Spelled.head {text : List Char} {release : Release}
    (spelled : Release.Spelled text release) : ∃ c rest, text = c :: rest ∧ c.isDigit = true := by
  cases spelled with
  | plain version => exact version.head
  | @patched text patch version spelled =>
    obtain ⟨c, rest, rfl, digit⟩ := spelled.head
    exact ⟨c, rest ++ '.' :: patch, rfl, digit⟩

/-- A version holds ASCII digits and dots only. -/
theorem Version.Spelled.chars {text : List Char} {version : Version}
    (spelled : Version.Spelled text version) : ∀ c ∈ text, c = '.' ∨ c.isDigit = true := by
  obtain ⟨major, minor, rfl, series, release⟩ := spelled
  intro c member
  simp only [List.mem_append, List.mem_cons] at member
  rcases member with first | rfl | second
  · exact .inr (series.ascii c first)
  · exact .inl rfl
  · exact .inr (release.ascii c second)

/-- A release holds decimal digits and dots only. -/
theorem Release.Spelled.chars {text : List Char} {release : Release}
    (spelled : Release.Spelled text release) :
    ∀ c ∈ text, c = '.' ∨ Text.isDecimalDigit c = true := by
  have version {text : List Char} {version : Version} (spelled : version.Spelled text) :
      ∀ c ∈ text, c = '.' ∨ Text.isDecimalDigit c = true :=
    fun c member => (spelled.chars c member).imp_right Text.isDecimalDigit_of_isDigit
  cases spelled with
  | plain spelled => exact version spelled
  | patched spelled nonempty decimal =>
    intro c member
    simp only [List.mem_append, List.mem_cons] at member
    rcases member with first | rfl | patch
    · exact version spelled c first
    · exact .inl rfl
    · exact .inr (decimal c patch)

/-- There is no white space in a version. -/
theorem Version.Spelled.solid {text : List Char} {version : Version}
    (spelled : Version.Spelled text version) : Text.isSolid text = true := by
  simp only [Text.isSolid, List.all_eq_true, Bool.not_eq_true']
  intro c member
  rcases spelled.chars c member with rfl | digit
  · decide
  · exact Text.isWhiteSpace_of_isDigit digit

/-- The strict reader accepts what spells a version once it is trimmed. -/
theorem Version.parse_eq_ok_iff {text : String} {version : Version} :
    Version.parse text = .ok version ↔ version.Spelled (Text.trim text.toList) := by
  rw [← Version.ofChars?_eq_some_iff, Version.parse]
  cases Version.ofChars? (Text.trim text.toList) <;> simp

/-- The strict reader refuses what spells no version once it is trimmed, and names it. -/
theorem Version.parse_eq_error_iff {text : String} {cause : VersionError} :
    Version.parse text = .error cause ↔
      (∀ version : Version, ¬ version.Spelled (Text.trim text.toList)) ∧
        cause = .malformed (String.ofList (Text.trim text.toList)) := by
  simp only [← Version.ofChars?_eq_some_iff, Version.parse]
  cases Version.ofChars? (Text.trim text.toList) <;> simp [eq_comm]

/-- A text spells one version only. -/
theorem Version.Spelled.unique {text : List Char} {version other : Version}
    (spelled : version.Spelled text) (again : other.Spelled text) : version = other := by
  rw [← Version.ofChars?_eq_some_iff] at spelled again
  exact Option.some.inj (spelled.symm.trans again)

/-! ## Written versions -/

/-- A version is spelled by what is written for it. -/
theorem Version.spelled_chars (version : Version) : version.Spelled version.chars :=
  Version.ofChars?_eq_some_iff.1 (Version.ofChars?_chars version)

/-- A version is read back from its text. -/
@[simp]
theorem Version.parse_render (version : Version) : Version.parse version.render = .ok version := by
  have solid := version.spelled_chars.solid
  simp only [Version.parse, Version.render, String.toList_ofList, Text.trim_eq_self solid,
    Version.ofChars?_chars]

/-- Versions are known by their texts. -/
theorem Version.render_inj {first second : Version} :
    first.render = second.render ↔ first = second := by
  constructor
  · intro same
    have read := congrArg Version.parse same
    rw [Version.parse_render, Version.parse_render] at read
    exact Except.ok.inj read
  · rintro rfl
    rfl

end BuildMatrix
