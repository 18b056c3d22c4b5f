import BuildMatrix.Json.Tree

/-!
# JSON numbers

A number that is spelled without point and exponent is an integer as long as it fits a 64-bit word
of its sign; every other number is a double. A double is made of the digits that fit a 64-bit word,
which is rounded to a double, and then of one scaling by a power of ten, which rounds again.
-/

namespace BuildMatrix.Json

/-- The value of a number. -/
inductive Number where
  /-- A number without a fraction and exponent that fits in a word. -/
  | integer (value : Int)
  /-- Any other number, rounded. -/
  | floating (value : Float)

/-- The bound of the words that hold digits. -/
def wordBound : Nat := UInt64.size

/-- A word followed by as many of the digits as it holds, and the digits that are left. -/
def absorb (word : Nat) : List Nat → Nat × List Nat
  | [] => (word, [])
  | digit :: rest =>
    if word * 10 + digit < wordBound then absorb (word * 10 + digit) rest else (word, digit :: rest)

/-- A double divided by a power of ten, in steps that the doubles can hold. -/
def divided (value : Float) (places : Nat) : Float :=
  if places ≤ 308 then value / Float.ofScientific 1 false places
  else if value == 0 then value
  else divided (value / Float.ofScientific 1 false 308) (places - 308)
termination_by places

/-- A double times a power of ten, if that is finite. -/
def scaled? (value : Float) (power : Int) : Option Float :=
  if power < 0 then some (divided value power.natAbs)
  else if value == 0 then some value
  else if power ≤ 308 then
    let product := value * Float.ofScientific 1 false power.toNat
    if product.isFinite then some product else none
  else none

/-- The values of digits. -/
def digitValues (digits : Bytes) : List Nat :=
  digits.map fun digit => digit.toNat - 0x30

/-- The number that a run of digits denotes. -/
def digitsValue (digits : Bytes) : Nat :=
  (digitValues digits).foldl (fun value digit => value * 10 + digit) 0

/-- The parts of a number's spelling: the digits before and after the point, and the exponent. -/
structure Spelled where
  /-- A minus sign stands in front. -/
  negative : Bool
  /-- The digits before the point. -/
  whole : Bytes
  /-- The digits after the point. -/
  fraction : Bytes
  /-- The exponent. -/
  exponent : Int
  /-- There is neither a point nor an exponent. -/
  plain : Bool

/-- The exponent that a spelling ends with; zero if it ends without one. -/
def spelledExponent (bytes : Bytes) : Int :=
  match bytes.drop 1 with
  | 0x2D :: digits => -digitsValue digits
  | 0x2B :: digits => digitsValue digits
  | digits => digitsValue digits

/-- Take a spelling apart. -/
def Spelled.ofBytes (bytes : Bytes) : Spelled :=
  let negative := bytes.head? = some 0x2D
  let unsigned := if negative then bytes.drop 1 else bytes
  let whole := unsigned.takeWhile isDigit
  let rest := unsigned.drop whole.length
  let fraction := if rest.head? = some 0x2E then (rest.drop 1).takeWhile isDigit else []
  let tail := rest.dropWhile fun byte => byte ≠ 0x65 && byte ≠ 0x45
  { negative, whole, fraction, exponent := spelledExponent tail, plain := rest.isEmpty }

/-- The double of a spelling, if that is finite. -/
def Spelled.floating? (spelled : Spelled) : Option Float :=
  let (word, skipped) := absorb 0 (digitValues spelled.whole)
  let (word, dropped) := absorb word (digitValues spelled.fraction)
  let places : Int := skipped.length - (spelled.fraction.length - dropped.length)
  (scaled? (UInt64.ofNat word).toFloat (places + spelled.exponent)).map fun value =>
    if spelled.negative then -value else value

/-- The integer of a spelling that fits a 64-bit word; zero with a minus sign is none. -/
def Spelled.integer? (spelled : Spelled) : Option Int :=
  let value := digitsValue spelled.whole
  if !spelled.plain then none
  else if spelled.negative then
    if 0 < value ∧ value ≤ wordBound / 2 then some (-value) else none
  else if value < wordBound then some value
  else none

/-- The number of a spelling, if it is not too large for a double. -/
def Number.ofBytes? (bytes : Bytes) : Option Number :=
  let spelled := Spelled.ofBytes bytes
  match spelled.integer? with
  | some value => some (.integer value)
  | none => spelled.floating?.map .floating

end BuildMatrix.Json
