/-!
# Numerals

Reading and writing natural numbers in ASCII decimal digits. Reading takes any number of leading
zeros and refuses everything but a non-empty run of ASCII digits; what writing produces is read
back.
-/

namespace BuildMatrix.Text

/-- A non-empty run of ASCII digits. -/
def isNumeral (text : List Char) : Bool :=
  !text.isEmpty && text.all Char.isDigit

/-- The number that a run of ASCII digits denotes. -/
def numeralValue (digits : List Char) : Nat :=
  Nat.ofDigitChars 10 digits 0

/-- The number that `text` denotes, if it is a numeral. -/
def readNumeral? (text : List Char) : Option Nat :=
  if isNumeral text then some (numeralValue text) else none

/-- The shortest numeral of a number. -/
def numeral (n : Nat) : List Char :=
  Nat.toDigits 10 n

/-- The numeral of a number filled up with leading zeros to `width` digits. -/
def paddedNumeral (width n : Nat) : List Char :=
  List.replicate (width - (numeral n).length) '0' ++ numeral n

/-- What is written for a number is a numeral. -/
theorem isNumeral_numeral (n : Nat) : isNumeral (numeral n) = true := by
  simp only [isNumeral, numeral, Bool.and_eq_true, List.all_eq_true]
  refine ⟨?_, fun c member => Nat.isDigit_of_mem_toDigits (by decide) (by decide) member⟩
  cases shape : Nat.toDigits 10 n with
  | nil => exact absurd shape Nat.toDigits_ne_nil
  | cons _ _ => rfl

/-- No dot is written in a number. -/
theorem dot_not_mem_numeral (n : Nat) : '.' ∉ numeral n := by
  intro member
  have digit := Nat.isDigit_of_mem_toDigits (by decide) (by decide) member
  exact absurd digit (by decide)

/-- What writing produces is read back. -/
@[simp]
theorem readNumeral?_numeral (n : Nat) : readNumeral? (numeral n) = some n := by
  rw [readNumeral?, if_pos (isNumeral_numeral n), numeralValue, numeral,
    Nat.ofDigitChars_ten_toDigits]

/-- Distinct numbers have distinct numerals. -/
theorem numeral_injective {m n : Nat} (same : numeral m = numeral n) : m = n := by
  have read := congrArg readNumeral? same
  simpa using read

end BuildMatrix.Text
