import BuildMatrix.Calendar.Reading
import BuildMatrix.Proofs.Text.WhiteSpace
import Mathlib.Data.List.Basic

/-!
# Written dates

Every date is read back from its text, those of years with a sign and more than four digits too: a
number of fixed width ends where its width does, and any other one before a character that is no
digit.
-/

namespace BuildMatrix

namespace Text

/-- A filled-up numeral is a numeral. -/
theorem isNumeral_paddedNumeral (width n : Nat) : isNumeral (paddedNumeral width n) = true := by
  have digits := isNumeral_numeral n
  simp only [isNumeral, Bool.and_eq_true, Bool.not_eq_true', List.isEmpty_eq_false_iff] at digits
  simp only [isNumeral, paddedNumeral, Bool.and_eq_true, Bool.not_eq_true',
    List.isEmpty_eq_false_iff, List.all_append]
  refine ⟨List.append_ne_nil_of_right_ne_nil _ digits.1, ?_, digits.2⟩
  rw [List.all_eq_true]
  intro c member
  rw [List.eq_of_mem_replicate member]
  rfl

/-- Leading zeros do not change the number. -/
theorem numeralValue_paddedNumeral (width n : Nat) :
    numeralValue (paddedNumeral width n) = n := by
  rw [numeralValue, paddedNumeral, Nat.ofDigitChars_append, Nat.ofDigitChars_replicate_zero,
    Nat.mul_zero, numeral, Nat.ofDigitChars_ten_toDigits]

/-- A number that fits is filled up to exactly the width. -/
theorem length_paddedNumeral {width n : Nat} (fits : (numeral n).length ≤ width) :
    (paddedNumeral width n).length = width := by
  rw [paddedNumeral, List.length_append, List.length_replicate]
  omega

/-- A filled-up numeral begins with a digit. -/
theorem exists_digit_paddedNumeral (width n : Nat) :
    ∃ digit more, paddedNumeral width n = digit :: more ∧ digit.isDigit = true := by
  have digits := isNumeral_paddedNumeral width n
  cases shape : paddedNumeral width n with
  | nil =>
    rw [shape] at digits
    exact absurd digits (by decide)
  | cons digit more =>
    rw [shape] at digits
    simp only [isNumeral, List.all_cons, Bool.and_eq_true] at digits
    exact ⟨digit, more, rfl, digits.2.1⟩

end Text

namespace Date

open Text (numeralValue isNumeral paddedNumeral)

/-- A numeral is read up to its end, which is that of the width or one before no digit. -/
theorem number?_append {width : Nat} {digits rest : List Char} (numeral : isNumeral digits = true)
    (fits : digits.length ≤ width)
    (ends : digits.length = width ∨ ∀ c, rest.head? = some c → c.isDigit = false) :
    number? width (digits ++ rest) = some (numeralValue digits, rest) := by
  have all : ∀ c ∈ digits, c.isDigit = true := by
    simp only [isNumeral, Bool.and_eq_true, List.all_eq_true] at numeral
    exact numeral.2
  have stops : (rest.take (width - digits.length)).takeWhile Char.isDigit = [] := by
    rcases ends with full | other
    · rw [full, Nat.sub_self, List.take_zero, List.takeWhile_nil]
    · cases rest with
      | nil => rw [List.take_nil, List.takeWhile_nil]
      | cons c rest =>
        cases width - digits.length with
        | zero => rfl
        | succ more => exact List.takeWhile_cons_of_neg (by simp [other c rfl])
  have taken : ((digits ++ rest).take width).takeWhile Char.isDigit = digits := by
    rw [List.take_append, List.take_of_length_le fits, List.takeWhile_append_of_pos all, stops,
      List.append_nil]
  rw [number?, taken, Text.readNumeral?, if_pos numeral, List.drop_left]
  rfl

/-- A number of fixed width is read up to its width. -/
theorem number?_paddedNumeral {width n : Nat} (fits : (Text.numeral n).length ≤ width)
    (rest : List Char) : number? width (paddedNumeral width n ++ rest) = some (n, rest) := by
  have full := Text.length_paddedNumeral fits
  rw [number?_append (Text.isNumeral_paddedNumeral width n) (Nat.le_of_eq full) (.inl full),
    Text.numeralValue_paddedNumeral]

/-- No white space stands in front of a number. -/
theorem trimStart_paddedNumeral (width n : Nat) (rest : List Char) :
    Text.trimStart (paddedNumeral width n ++ rest) = paddedNumeral width n ++ rest := by
  obtain ⟨digit, more, shape, isDigit⟩ := Text.exists_digit_paddedNumeral width n
  have solid := Text.isWhiteSpace_of_isDigit isDigit
  rw [shape, List.cons_append, Text.trimStart]
  exact List.dropWhile_cons_of_neg (by simp [solid])

/-- A hyphen in front of a number is read. -/
theorem afterHyphen?_paddedNumeral (width n : Nat) (rest : List Char) :
    afterHyphen? ('-' :: (paddedNumeral width n ++ rest)) = some (paddedNumeral width n ++ rest) := by
  have trimmed : Text.trimStart ('-' :: (paddedNumeral width n ++ rest)) =
      ['-'] ++ (paddedNumeral width n ++ rest) := List.dropWhile_cons_of_neg (by decide)
  rw [afterHyphen?, trimmed, Text.after?_append, Option.map_some, trimStart_paddedNumeral]

/-- A year is read back in front of a hyphen. -/
theorem year?_yearChars (year : Int) (rest : List Char) :
    year? (Text.trimStart (yearChars year ++ '-' :: rest)) = some (year, '-' :: rest) := by
  have stops : ∀ c, ('-' :: rest).head? = some c → c.isDigit = false := by
    intro c first
    obtain rfl : '-' = c := Option.some.inj first
    decide
  have signed : number? (paddedNumeral 4 year.natAbs ++ '-' :: rest).length
      (paddedNumeral 4 year.natAbs ++ '-' :: rest) = some (year.natAbs, '-' :: rest) := by
    rw [number?_append (Text.isNumeral_paddedNumeral 4 year.natAbs) _ (.inr stops),
      Text.numeralValue_paddedNumeral]
    rw [List.length_append]
    omega
  by_cases plain : 0 ≤ year ∧ year ≤ 9999
  · obtain ⟨digit, more, shape, isDigit⟩ := Text.exists_digit_paddedNumeral 4 year.natAbs
    have fits : (Text.numeral year.natAbs).length ≤ 4 :=
      (Nat.length_toDigits_le_iff (by decide) (by decide)).2 (by omega)
    have same : (year.natAbs : Int) = year := by omega
    have unsigned (sign : Char) (other : sign.isDigit = false) (after : List Char) :
        paddedNumeral 4 year.natAbs ++ '-' :: rest ≠ sign :: after := by
      rw [shape]
      intro equal
      obtain ⟨rfl, -⟩ := List.cons.inj equal
      rw [isDigit] at other
      exact nomatch other
    rw [yearChars, if_pos plain, trimStart_paddedNumeral, year?,
      number?_paddedNumeral fits]
    · show some ((year.natAbs : Int), '-' :: rest) = _
      rw [same]
    · exact fun after => unsigned '-' (by decide) after
    · exact fun after => unsigned '+' (by decide) after
  · rw [yearChars, if_neg plain]
    by_cases negative : year < 0
    · have same : -(year.natAbs : Int) = year := by omega
      have trimmed : Text.trimStart ('-' :: paddedNumeral 4 year.natAbs ++ '-' :: rest) =
          '-' :: (paddedNumeral 4 year.natAbs ++ '-' :: rest) :=
        List.dropWhile_cons_of_neg (by decide)
      rw [if_pos negative, trimmed, year?]
      simp only [signed, Option.map_some, same]
    · have same : (year.natAbs : Int) = year := by omega
      have trimmed : Text.trimStart ('+' :: paddedNumeral 4 year.natAbs ++ '-' :: rest) =
          '+' :: (paddedNumeral 4 year.natAbs ++ '-' :: rest) :=
        List.dropWhile_cons_of_neg (by decide)
      rw [if_neg negative, trimmed, year?]
      simp only [signed, Option.map_some, same]

/-- No month is longer than 31 days. -/
theorem daysInMonth_le (year : Int) (month : Nat) : Calendar.daysInMonth year month ≤ 31 := by
  unfold Calendar.daysInMonth
  repeat' split
  all_goals decide

/-- Every date is read back from its text. -/
@[simp]
theorem ofChars?_chars (date : Date) : ofChars? date.chars = some date := by
  obtain ⟨year, month, day, isDay⟩ := date
  have months : (Text.numeral month).length ≤ 2 := by
    have last := isDay.2.1.2
    exact (Nat.length_toDigits_le_iff (by decide) (by decide)).2 (by omega)
  have days : (Text.numeral day).length ≤ 2 := by
    have last := isDay.2.2.2
    have longest := daysInMonth_le year month
    exact (Nat.length_toDigits_le_iff (by decide) (by decide)).2 (by omega)
  have afterMonth := afterHyphen?_paddedNumeral 2 day []
  have dayRead := number?_paddedNumeral days []
  rw [List.append_nil] at afterMonth dayRead
  rw [ofChars?, chars]
  refine Option.bind_eq_some_iff.2 ⟨_, year?_yearChars year _, ?_⟩
  refine Option.bind_eq_some_iff.2 ⟨_, afterHyphen?_paddedNumeral 2 month _, ?_⟩
  refine Option.bind_eq_some_iff.2 ⟨_, number?_paddedNumeral months _, ?_⟩
  refine Option.bind_eq_some_iff.2 ⟨_, afterMonth, ?_⟩
  refine Option.bind_eq_some_iff.2 ⟨_, dayRead, ?_⟩
  refine Option.bind_eq_some_iff.2 ⟨(), rfl, ?_⟩
  exact dif_pos isDay

end Date

end BuildMatrix
