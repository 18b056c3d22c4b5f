import BuildMatrix.Proofs.Manifest.Classifier
import BuildMatrix.Proofs.Manifest.Line

/-!
# Where classifiers stand

A classifier is read back from its own text whatever follows it, so what stands at a place of a line
is determined by the line. There is no quote inside a classifier. Therefore two classifiers that
stand on one line have nothing in common but a quote that ends one of them and begins the other.
-/

namespace BuildMatrix.Manifest

namespace Classifier

variable {classifier first second : Classifier} {line : List Char} {column other : Nat}

/-! ## Reading a classifier back -/

/-- The parts of a classifier that are white space. -/
theorem blank (classifier : Classifier) :
    classifier.first.1.all Text.isWhiteSpace = true ∧
      classifier.first.2.all Text.isWhiteSpace = true ∧
      classifier.second.1.all Text.isWhiteSpace = true ∧
      classifier.second.2.all Text.isWhiteSpace = true := by
  have spaced := classifier.spaced
  simp only [List.forall_mem_cons] at spaced
  exact ⟨spaced.1, spaced.2.1, spaced.2.2.1, spaced.2.2.2.1⟩

/-- What stands between the quotes, and the quotes around it. -/
theorem chars_append (classifier : Classifier) (after : List Char) :
    classifier.chars ++ after =
      classifier.opening :: ("Programming Language".toList ++ (classifier.first.1 ++
        ("::".toList ++ (classifier.first.2 ++ ("Python".toList ++ (classifier.second.1 ++
          ("::".toList ++ (classifier.second.2 ++ (classifier.major ++
            '.' :: (classifier.minor ++ classifier.closing :: after)))))))))) := by
  simp only [chars, number, List.cons_append, List.append_assoc, List.nil_append]

/-- Its number is read behind white space up to the closing quote. -/
theorem number_scanned (classifier : Classifier) (after : List Char) :
    let text := Text.trimStart (classifier.second.2 ++ (classifier.major ++
      '.' :: (classifier.minor ++ classifier.closing :: after)))
    text.takeWhile Text.isDecimalDigit = classifier.major ∧
      text.dropWhile Text.isDecimalDigit =
        '.' :: (classifier.minor ++ classifier.closing :: after) := by
  obtain ⟨present, all⟩ := isDigitRun_iff.1 classifier.numbered.1
  obtain ⟨digit, others, head⟩ := List.exists_cons_of_ne_nil present
  have solid : Text.isWhiteSpace digit = false :=
    Text.isWhiteSpace_of_isDecimalDigit (all digit (by simp [head]))
  have begins : (classifier.major ++
      '.' :: (classifier.minor ++ classifier.closing :: after)).head? = some digit := by
    rw [head]
    rfl
  have trimmed := Text.trimStart_gap_append classifier.blank.2.2.2 begins solid
  have outside : Text.isDecimalDigit '.' = false := by decide
  dsimp only
  rw [trimmed]
  exact ⟨Text.takeWhile_run all outside _, Text.dropWhile_run all outside _⟩

/-- A classifier is read back from its text, whatever follows. -/
theorem classifierAt?_chars (classifier : Classifier) (after : List Char) :
    classifierAt? (classifier.chars ++ after) = some (classifier.number, after) := by
  obtain ⟨blank, blankAfter, laterBlank, -⟩ := classifier.blank
  obtain ⟨opens, closes⟩ := classifier.quoted
  obtain ⟨someMajor, -⟩ := isDigitRun_iff.1 classifier.numbered.1
  obtain ⟨someMinor, allMinor⟩ := isDigitRun_iff.1 classifier.numbered.2
  have colons : ∀ rest, Text.after? "::".toList
      (Text.trimStart (classifier.first.1 ++ ("::".toList ++ rest))) = some rest :=
    Text.after?_trimStart_gap blank rfl (by decide)
  have word : ∀ rest, Text.after? "Python".toList
      (Text.trimStart (classifier.first.2 ++ ("Python".toList ++ rest))) = some rest :=
    Text.after?_trimStart_gap blankAfter rfl (by decide)
  have laterColons : ∀ rest, Text.after? "::".toList
      (Text.trimStart (classifier.second.1 ++ ("::".toList ++ rest))) = some rest :=
    Text.after?_trimStart_gap laterBlank rfl (by decide)
  obtain ⟨major, dotted⟩ := classifier.number_scanned after
  have dot : Text.after? ['.'] ('.' :: (classifier.minor ++ classifier.closing :: after)) =
      some (classifier.minor ++ classifier.closing :: after) := Text.after?_append ['.'] _
  have ended := isDecimalDigit_of_isQuote closes
  have minor := Text.takeWhile_run allMinor ended after
  have rest := Text.dropWhile_run allMinor ended after
  have digits : (!classifier.major.isEmpty && !classifier.minor.isEmpty) = true := by
    simp [someMajor, someMinor]
  rw [chars_append]
  simp only [classifierAt?, Option.bind_eq_bind, Option.bind_eq_some_iff, Option.guard_eq_some']
  refine ⟨(), opens, _, Text.after?_append _ _, _, colons _, _, word _, _, laterColons _, _,
    dotted ▸ dot, (), ?_, ?_⟩
  · rw [major, minor]
    exact digits
  · rw [major, minor, rest]
    exact if_pos closes

/-! ## Quotes -/

/-- What a classifier has between its quotes. -/
def interior (classifier : Classifier) : List Char :=
  "Programming Language".toList ++ (classifier.first.1 ++ ("::".toList ++
    (classifier.first.2 ++ ("Python".toList ++ (classifier.second.1 ++ ("::".toList ++
      (classifier.second.2 ++ classifier.number)))))))

/-- A classifier is its text between two quotes. -/
theorem chars_eq (classifier : Classifier) :
    classifier.chars = classifier.opening :: (classifier.interior ++ [classifier.closing]) := by
  unfold chars interior
  repeat rw [List.append_assoc]

/-- A classifier is two characters longer than its text. -/
theorem length_chars (classifier : Classifier) :
    classifier.chars.length = classifier.interior.length + 2 := by
  rw [chars_eq, List.length_cons, List.length_append, List.length_singleton]

/-- Characters that pass a test which no quote passes are no quotes. -/
theorem plain_of_forall {text : List Char} {test : Char → Bool}
    (outside : ∀ {c}, isQuote c = true → test c = false) (inside : ∀ c ∈ text, test c = true) :
    ∀ c ∈ text, isQuote c = false := by
  intro c member
  have passes : test c = true := inside c member
  by_contra quote
  rw [outside (Bool.not_eq_false _ ▸ quote)] at passes
  exact nomatch passes

/-- White space holds no quote. -/
theorem plain_of_blank {gap : List Char} (white : gap.all Text.isWhiteSpace = true) :
    ∀ c ∈ gap, isQuote c = false :=
  plain_of_forall isWhiteSpace_of_isQuote (List.all_eq_true.1 white)

/-- Digits hold no quote. -/
theorem plain_of_isDigitRun {digits : List Char} (run : Text.isDigitRun digits = true) :
    ∀ c ∈ digits, isQuote c = false :=
  plain_of_forall isDecimalDigit_of_isQuote (isDigitRun_iff.1 run).2

/-- The fixed words of a classifier hold no quote. -/
theorem plain_words : ("Programming Language".toList.all fun c => !isQuote c) = true ∧
    ("::".toList.all fun c => !isQuote c) = true ∧
    ("Python".toList.all fun c => !isQuote c) = true := by
  decide

/-- There is no quote inside a classifier. -/
theorem plain_interior (classifier : Classifier) :
    ∀ c ∈ classifier.interior, isQuote c = false := by
  obtain ⟨blank, blankAfter, laterBlank, lastBlank⟩ := classifier.blank
  have plain : ∀ {word : List Char}, (word.all fun c => !isQuote c) = true →
      ∀ c ∈ word, isQuote c = false := by
    intro word all c member
    simpa using List.all_eq_true.1 all c member
  obtain ⟨language, colons, word⟩ := plain_words
  have number : ∀ c ∈ classifier.number, isQuote c = false := by
    intro c member
    rcases List.mem_append.1 member with major | minor
    · exact plain_of_isDigitRun classifier.numbered.1 c major
    · rcases List.mem_cons.1 minor with rfl | minor
      · decide
      · exact plain_of_isDigitRun classifier.numbered.2 c minor
  have both : ∀ {front rest : List Char}, (∀ c ∈ front, isQuote c = false) →
      (∀ c ∈ rest, isQuote c = false) → ∀ c ∈ front ++ rest, isQuote c = false :=
    fun front rest => List.forall_mem_append.2 ⟨front, rest⟩
  refine both (plain language) (both (plain_of_blank blank) (both (plain colons) ?_))
  refine both (plain_of_blank blankAfter) (both (plain word) ?_)
  exact both (plain_of_blank laterBlank) (both (plain colons) (both (plain_of_blank lastBlank)
    number))

/-! ## Places on a line -/

/-- A classifier stands on a line at a column. -/
def StandsAt (classifier : Classifier) (line : List Char) (column : Nat) : Prop :=
  ∃ before after, line = before ++ (classifier.chars ++ after) ∧ before.length = column

/-- What stands on the rest of a line stands on the line. -/
theorem StandsAt.append {rest : List Char} (stands : classifier.StandsAt rest column)
    (front : List Char) : classifier.StandsAt (front ++ rest) (front.length + column) := by
  obtain ⟨before, after, rfl, rfl⟩ := stands
  exact ⟨front ++ before, after, by rw [List.append_assoc], List.length_append⟩

/-- What stands on a line behind a part of it stands on the rest. -/
theorem StandsAt.of_append {front rest : List Char}
    (stands : classifier.StandsAt (front ++ rest) (front.length + column)) :
    classifier.StandsAt rest column := by
  obtain ⟨before, after, split, length⟩ := stands
  have part : rest = (front ++ rest).drop front.length := by rw [List.drop_left]
  refine ⟨before.drop front.length, after, ?_, ?_⟩
  · rw [part, split, List.drop_append_of_le_length (by omega)]
  · rw [List.length_drop]
    omega

/-- What stands at the front of a text is determined by the text. -/
theorem unique {after rest : List Char} (same : first.chars ++ after = second.chars ++ rest) :
    first.number = second.number ∧ after = rest := by
  have read := first.classifierAt?_chars after
  rw [same, second.classifierAt?_chars, Option.some.injEq, Prod.mk.injEq] at read
  exact ⟨read.1.symm, read.2.symm⟩

/-- What stands at a column is read from there, and nothing else is. -/
theorem classifierAt?_drop_eq_some_iff {number after : List Char} :
    classifierAt? (line.drop column) = some (number, after) ↔
      ∃ classifier : Classifier, classifier.StandsAt line column ∧
        classifier.number = number ∧ line.drop (column + classifier.chars.length) = after := by
  constructor
  · intro read
    obtain ⟨classifier, split, same⟩ := exists_of_classifierAt? read
    have within : column ≤ line.length := by
      by_contra beyond
      rw [List.drop_eq_nil_of_le (by omega)] at read
      exact nomatch read
    have whole : line = line.take column ++ (classifier.chars ++ after) := by
      rw [← split, List.take_append_drop]
    refine ⟨classifier, ⟨line.take column, after, whole, List.length_take_of_le within⟩, same, ?_⟩
    rw [← List.drop_drop, split, List.drop_left]
  · rintro ⟨classifier, ⟨before, rest, rfl, rfl⟩, rfl, rfl⟩
    rw [List.drop_left, classifierAt?_chars, ← List.drop_drop, List.drop_left, List.drop_left]

/-- Of two classifiers on a line, the later one begins behind the other or with its closing quote. -/
theorem StandsAt.apart (earlier : first.StandsAt line column) (later : second.StandsAt line other)
    (behind : column < other) : column + first.chars.length ≤ other + 1 := by
  obtain ⟨before, after, split, rfl⟩ := earlier
  obtain ⟨front, rest, same, rfl⟩ := later
  by_contra close
  rw [length_chars] at close
  have opening : (line)[front.length]? = some second.opening := by
    rw [same, List.getElem?_append_right (Nat.le_refl _), Nat.sub_self, chars_eq]
    rfl
  -- The opening quote of the later one would be inside the earlier one.
  have parts : line = (before ++ [first.opening]) ++
      (first.interior ++ first.closing :: after) := by
    rw [split, chars_eq]
    simp
  have length : (before ++ [first.opening]).length = before.length + 1 := by simp
  have inside : (line)[front.length]? = first.interior[front.length - (before.length + 1)]? := by
    rw [parts, List.getElem?_append_right (by omega), length,
      List.getElem?_append_left (by omega)]
  rw [inside] at opening
  have plain := first.plain_interior second.opening (List.mem_of_getElem? opening)
  rw [second.quoted.1] at plain
  exact nomatch plain

end Classifier

end BuildMatrix.Manifest
