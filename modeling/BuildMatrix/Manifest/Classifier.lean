import BuildMatrix.Manifest.Declaration
import BuildMatrix.Version.Reading

/-!
# Version classifiers

A classifier is a quoted text that names the language and a version of two components. A line may
hold several; they are found from left to right and do not share characters, so the quote that ends
one does not begin the next. Those whose components are words are collected, each version once, in
the order of their first occurrence.
-/

namespace BuildMatrix.Manifest

/-- The version text of the classifier that starts a text, and what follows its closing quote. -/
def classifierAt? : List Char → Option (List Char × List Char)
  | [] => none
  | opening :: text => do
    guard (isQuote opening)
    let text ← Text.after? "Programming Language".toList text
    let text ← Text.after? "::".toList (Text.trimStart text)
    let text ← Text.after? "Python".toList (Text.trimStart text)
    let text ← Text.after? "::".toList (Text.trimStart text)
    let text := Text.trimStart text
    let major := text.takeWhile Text.isDecimalDigit
    let text ← Text.after? ['.'] (text.dropWhile Text.isDecimalDigit)
    let minor := text.takeWhile Text.isDecimalDigit
    guard (!major.isEmpty && !minor.isEmpty)
    match text.dropWhile Text.isDecimalDigit with
    | [] => none
    | closing :: rest => if isQuote closing then some (major ++ '.' :: minor, rest) else none

/-- The version texts of the classifiers of a line; the first `covered` characters belong to an
earlier one. -/
def classifierTexts : (covered : Nat) → List Char → List (List Char)
  | _, [] => []
  | covered + 1, _ :: rest => classifierTexts covered rest
  | 0, c :: rest =>
    match classifierAt? (c :: rest) with
    | some (version, after) => version :: classifierTexts (rest.length - after.length) rest
    | none => classifierTexts 0 rest

/-- The versions of a manifest text's classifiers, each at its first occurrence. -/
def classifiers (content : String) : List Version :=
  ((activeLines content.toList).flatMap fun line =>
    (classifierTexts 0 line).filterMap Version.ofChars?).eraseDups

end BuildMatrix.Manifest
