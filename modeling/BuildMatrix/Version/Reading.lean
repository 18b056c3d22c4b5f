import BuildMatrix.Version
import BuildMatrix.Text.Numeral
import BuildMatrix.Text.DecimalDigit
import BuildMatrix.Text.WhiteSpace

/-!
# Version text

A version is written as its two words in decimal with a dot between them. Reading trims white space
and takes leading zeros; a release may carry a third component, the patch, which is a run of digits
of any script and of any size and is dropped. What is written is read back by both readers.
-/

namespace BuildMatrix

/-- The word that a numeral denotes, if it fits. -/
def readWord? (digits : List Char) : Option UInt32 :=
  (Text.readNumeral? digits).bind fun value =>
    if value < UInt32.size then some (UInt32.ofNat value) else none

namespace Version

/-- The version with these two components, if both are words. -/
def ofComponents? (major minor : List Char) : Option Version :=
  (readWord? major).bind fun series => (readWord? minor).map fun release => ⟨series, release⟩

/-- The version that a text spells exactly, without white space. -/
def ofChars? (text : List Char) : Option Version :=
  match List.splitOn '.' text with
  | [major, minor] => ofComponents? major minor
  | _ => none

/-- The characters of a version. -/
def chars (version : Version) : List Char :=
  Text.numeral version.major.toNat ++ '.' :: Text.numeral version.minor.toNat

/-- The text of a version. -/
def render (version : Version) : String :=
  String.ofList version.chars

end Version

/-- A version together with the patch component that was written after it. -/
structure Release where
  /-- The first two components. -/
  version : Version
  /-- The digits of the third component, where there is one. -/
  patch : Option (List Char)
deriving DecidableEq

/-- The release that a text spells exactly, without white space. -/
def Release.ofChars? (text : List Char) : Option Release :=
  match List.splitOn '.' text with
  | [major, minor] => (Version.ofComponents? major minor).map fun version => ⟨version, none⟩
  | [major, minor, patch] =>
    if Text.isDigitRun patch then
      (Version.ofComponents? major minor).map fun version => ⟨version, some patch⟩
    else none
  | _ => none

namespace Version

/-- Read a version of exactly two components, white space around it allowed. -/
def parse (text : String) : Except VersionError Version :=
  let trimmed := Text.trim text.toList
  match ofChars? trimmed with
  | some version => .ok version
  | none => .error (.malformed (String.ofList trimmed))

/-- Read a version of two or three components and drop the third. -/
def parseTruncating (text : String) : Except VersionError Version :=
  let trimmed := Text.trim text.toList
  match Release.ofChars? trimmed with
  | some release => .ok release.version
  | none => .error (.malformed (String.ofList trimmed))

end Version

/-- The user-facing text of a version failure. -/
def VersionError.message : VersionError → String
  | .malformed text => s!"malformed version '{text}': expected MAJOR.MINOR"
  | .emptySet => "cannot select the highest version of an empty set"

/-- What is written for a word is read back. -/
@[simp]
theorem readWord?_numeral (word : UInt32) : readWord? (Text.numeral word.toNat) = some word := by
  have bound : word.toNat < UInt32.size := word.toNat_lt
  simp [readWord?, bound]

/-- What is written for a version splits at its dot into the two numbers. -/
theorem Version.splitOn_chars (version : Version) :
    List.splitOn '.' version.chars =
      [Text.numeral version.major.toNat, Text.numeral version.minor.toNat] := by
  rw [chars, List.splitOn_append_cons_self_of_not_mem (Text.dot_not_mem_numeral _),
    List.splitOn_eq_singleton (Text.dot_not_mem_numeral _)]

/-- The two numbers that are written for a version are read back as it. -/
@[simp]
theorem Version.ofComponents?_numerals (version : Version) :
    ofComponents? (Text.numeral version.major.toNat) (Text.numeral version.minor.toNat) =
      some version := by
  simp [ofComponents?]

/-- What is written is read back. -/
@[simp]
theorem Version.ofChars?_chars (version : Version) : ofChars? version.chars = some version := by
  simp [ofChars?, splitOn_chars]

/-- A version without a patch is read as a release without one. -/
@[simp]
theorem Release.ofChars?_chars (version : Version) :
    Release.ofChars? version.chars = some ⟨version, none⟩ := by
  simp [Release.ofChars?, Version.splitOn_chars]

end BuildMatrix
