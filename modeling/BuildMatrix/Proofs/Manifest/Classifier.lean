import BuildMatrix.Manifest.Classifier
import BuildMatrix.Proofs.Text.Literal
import BuildMatrix.Proofs.Version.Spelling
import Mathlib.Data.Option.Basic

/-!
# What classifiers list

A classifier is a piece of a line with a fixed wording: quotes around it, any white space around the
double colons, and two runs of decimal digits with a dot between them. The scanner finds nothing
else, so a version that it lists is spelled by a classifier of the manifest.
-/

namespace BuildMatrix.Manifest

/-- A classifier, part by part. -/
structure Classifier where
  /-- The quote in front. -/
  opening : Char
  /-- The gaps around the first double colon. -/
  first : List Char × List Char
  /-- The gaps around the second double colon. -/
  second : List Char × List Char
  /-- The digits before the dot. -/
  major : List Char
  /-- The digits after the dot. -/
  minor : List Char
  /-- The quote behind. -/
  closing : Char
  /-- Both ends are quotes, not necessarily the same. -/
  quoted : isQuote opening = true ∧ isQuote closing = true
  /-- The gaps hold white space only. -/
  spaced : ∀ gap ∈ [first.1, first.2, second.1, second.2], gap.all Text.isWhiteSpace = true
  /-- Both numbers are decimal digits of any script. -/
  numbered : Text.isDigitRun major = true ∧ Text.isDigitRun minor = true

namespace Classifier

/-- The version text of a classifier. -/
def number (classifier : Classifier) : List Char :=
  classifier.major ++ '.' :: classifier.minor

/-- The text of a classifier. -/
def chars (classifier : Classifier) : List Char :=
  classifier.opening :: ("Programming Language".toList ++
    (classifier.first.1 ++ ("::".toList ++ (classifier.first.2 ++ ("Python".toList ++
      (classifier.second.1 ++ ("::".toList ++ (classifier.second.2 ++
        (classifier.number ++ [classifier.closing])))))))))

end Classifier

/-- A line of the manifest text that declares something holds a classifier with this version. -/
def Lists (content : String) (version : Version) : Prop :=
  ∃ line ∈ activeLines content.toList, ∃ before after, ∃ classifier : Classifier,
    line = before ++ (classifier.chars ++ after) ∧ version.Spelled classifier.number

/-! ## One classifier -/

/-- The digits that a text begins with are a run of digits, when there are any. -/
theorem isDigitRun_takeWhile {text : List Char}
    (some : (text.takeWhile Text.isDecimalDigit).isEmpty = false) :
    Text.isDigitRun (text.takeWhile Text.isDecimalDigit) = true := by
  rw [Text.isDigitRun, some, List.all_takeWhile]
  rfl

/-- Two runs of digits with a dot between them are a number in front of what stops the second. -/
theorem number_split {text dotted behind : List Char}
    (dot : text.dropWhile Text.isDecimalDigit = '.' :: dotted)
    (stop : dotted.dropWhile Text.isDecimalDigit = behind) :
    text = text.takeWhile Text.isDecimalDigit ++
      '.' :: (dotted.takeWhile Text.isDecimalDigit ++ behind) := by
  have second := List.takeWhile_append_dropWhile (p := Text.isDecimalDigit) (l := dotted)
  rw [← stop, second, ← dot]
  exact List.takeWhile_append_dropWhile.symm

/-- What the scanner reads at the start of a text is a classifier. -/
theorem exists_of_classifierAt? {text number after : List Char}
    (found : classifierAt? text = some (number, after)) :
    ∃ classifier : Classifier, text = classifier.chars ++ after ∧ classifier.number = number := by
  cases text with
  | nil => exact nomatch found
  | cons opening text =>
    simp only [classifierAt?, Option.bind_eq_bind, Option.bind_eq_some_iff, Option.guard_eq_some']
      at found
    obtain ⟨-, opens, named, language, colons, firstColons, word, python, again, secondColons,
      dotted, dot, -, digits, ended⟩ := found
    split at ended
    · exact nomatch ended
    · next closing rest stop =>
      split at ended
      · next closes =>
        simp only [Option.some.injEq, Prod.mk.injEq] at ended
        obtain ⟨rfl, rfl⟩ := ended
        obtain ⟨gap, blank, toColons⟩ := Text.exists_gap_of_after? firstColons
        obtain ⟨gapAfter, blankAfter, toWord⟩ := Text.exists_gap_of_after? python
        obtain ⟨laterGap, laterBlank, toLaterColons⟩ := Text.exists_gap_of_after? secondColons
        obtain ⟨lastGap, lastBlank, toNumber⟩ := Text.exists_gap again
        rw [Text.after?_eq_some_iff] at language dot
        simp only [Bool.and_eq_true, Bool.not_eq_true'] at digits
        have spaces : ∀ each ∈ [gap, gapAfter, laterGap, lastGap],
            each.all Text.isWhiteSpace = true := by
          simp only [List.forall_mem_cons]
          exact ⟨blank, blankAfter, laterBlank, lastBlank, by simp⟩
        let classifier : Classifier :=
          { opening, closing, first := (gap, gapAfter), second := (laterGap, lastGap)
            major := (Text.trimStart again).takeWhile Text.isDecimalDigit
            minor := dotted.takeWhile Text.isDecimalDigit
            quoted := ⟨opens, closes⟩
            spaced := spaces
            numbered := ⟨isDigitRun_takeWhile digits.1, isDigitRun_takeWhile digits.2⟩ }
        refine ⟨classifier, ?_, rfl⟩
        rw [language, toColons, toWord, toLaterColons, toNumber, number_split dot stop]
        simp [classifier, Classifier.chars, Classifier.number]
      · exact nomatch ended

/-! ## Lines -/

/-- What the scanner finds on a line are classifiers of it. -/
theorem exists_of_mem_classifierTexts {covered : Nat} {line number : List Char}
    (member : number ∈ classifierTexts covered line) :
    ∃ before after, ∃ classifier : Classifier,
      line = before ++ (classifier.chars ++ after) ∧ classifier.number = number := by
  fun_induction classifierTexts covered line with
  | case1 => exact nomatch member
  | case2 covered c rest ih =>
    obtain ⟨before, after, classifier, rfl, same⟩ := ih member
    exact ⟨c :: before, after, classifier, rfl, same⟩
  | case3 c rest found after scanned ih =>
    rcases List.mem_cons.1 member with rfl | later
    · obtain ⟨classifier, split, same⟩ := exists_of_classifierAt? scanned
      exact ⟨[], after, classifier, split, same⟩
    · obtain ⟨before, behind, classifier, split, same⟩ := ih later
      exact ⟨c :: before, behind, classifier, by rw [split]; rfl, same⟩
  | case4 c rest none ih =>
    obtain ⟨before, after, classifier, rfl, same⟩ := ih member
    exact ⟨c :: before, after, classifier, rfl, same⟩

/-- A version that the scanner lists is spelled by a classifier of the manifest text. -/
theorem lists_of_mem_classifiers {content : String} {version : Version}
    (member : version ∈ classifiers content) : Lists content version := by
  simp only [classifiers, List.mem_eraseDups, List.mem_flatMap, List.mem_filterMap] at member
  obtain ⟨line, active, number, found, read⟩ := member
  obtain ⟨before, after, classifier, split, rfl⟩ := exists_of_mem_classifierTexts found
  exact ⟨line, active, before, after, classifier, split, Version.ofChars?_eq_some_iff.1 read⟩

end BuildMatrix.Manifest
