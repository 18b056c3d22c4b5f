import BuildMatrix.Calendar.Date
import BuildMatrix.Text.Literal
import BuildMatrix.Text.Numeral
import BuildMatrix.Text.WhiteSpace

/-!
# Date text

A date is written as year, month and day with hyphens between them. A year from 0 to 9999 has
exactly four digits, any other year a sign and at least four. Reading takes white space around
every number and hyphen, months and days of one or two digits, years of one to four digits, and
with a sign years of any number of digits.
-/

namespace BuildMatrix.Date

/-- The number spelled by at most `width` digits at the start of a text, and the text after it. -/
def number? (width : Nat) (text : List Char) : Option (Nat × List Char) :=
  let digits := (text.take width).takeWhile Char.isDigit
  (Text.readNumeral? digits).map fun value => (value, text.drop digits.length)

/-- The year at the start of a text, and the text after it. -/
def year? (text : List Char) : Option (Int × List Char) :=
  match text with
  | '-' :: digits => (number? digits.length digits).map fun (value, rest) => (-value, rest)
  | '+' :: digits => (number? digits.length digits).map fun (value, rest) => (value, rest)
  | _ => (number? 4 text).map fun (value, rest) => (value, rest)

/-- What follows a hyphen and the white space on its two sides. -/
def afterHyphen? (text : List Char) : Option (List Char) :=
  (Text.after? ['-'] (Text.trimStart text)).map Text.trimStart

/-- The date that a text spells. -/
def ofChars? (text : List Char) : Option Date := do
  let (year, text) ← year? (Text.trimStart text)
  let (month, text) ← number? 2 (← afterHyphen? text)
  let (day, text) ← number? 2 (← afterHyphen? text)
  guard (Text.trimStart text).isEmpty
  ofNumbers? year month day

/-- Read a date. -/
def parse? (text : String) : Option Date :=
  ofChars? text.toList

/-- The characters of a year. -/
def yearChars (year : Int) : List Char :=
  if 0 ≤ year ∧ year ≤ 9999 then Text.paddedNumeral 4 year.natAbs
  else (if year < 0 then '-' else '+') :: Text.paddedNumeral 4 year.natAbs

/-- The characters of a date. -/
def chars (date : Date) : List Char :=
  yearChars date.year ++ '-' :: (Text.paddedNumeral 2 date.month ++
    '-' :: Text.paddedNumeral 2 date.day)

/-- The text of a date. -/
def render (date : Date) : String :=
  String.ofList date.chars

end BuildMatrix.Date
