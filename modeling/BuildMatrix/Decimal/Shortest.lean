import BuildMatrix.Text.Numeral

/-!
# Shortest decimals

The decimal text of a binary floating-point number with the fewest digits that still read back as
that number. A number is an integer times a power of two, and the reals that round to it form an
interval around it. Of all decimal grids the coarsest one with a point in the interval gives the
fewest digits; of the two points next to the number the nearer one is taken, and the upper one if
they are equally near.
-/

namespace BuildMatrix

/-- A decimal number: an integer times a power of ten. -/
structure Decimal where
  /-- The integer. -/
  coefficient : Nat
  /-- The power of ten. -/
  exponent : Int
deriving DecidableEq, Inhabited

namespace Decimal

/-- A positive binary number with its interval: `quarters` times a power of two is four times the
number, and the two ends lie that many quarters away from it. -/
structure Rounding where
  /-- Four times the integer. -/
  quarters : Nat
  /-- The distance to the lower end. -/
  below : Nat
  /-- The distance to the upper end. -/
  above : Nat
  /-- The ends belong to the interval. -/
  closed : Bool
  /-- The power of two of a quarter. -/
  exponent : Int
deriving DecidableEq

/-- The interval of a positive finite double, from its fraction bits and its biased exponent. -/
def Rounding.ofFields (fraction biased : Nat) : Rounding :=
  let integer := if biased = 0 then fraction else Nat.pow 2 52 + fraction
  { quarters := 4 * integer
    below := if fraction = 0 ∧ 1 < biased then 1 else 2
    above := 2
    closed := integer % 2 = 0
    exponent := (max biased 1 : Int) - 1077 }

namespace Rounding

/-- A number of quarters in units that also measure the grid of `10 ^ power`. -/
def measure (rounding : Rounding) (power : Int) (quarters : Nat) : Nat :=
  quarters * Nat.pow 2 rounding.exponent.toNat * Nat.pow 10 (-power).toNat

/-- The distance between neighbours on the grid of `10 ^ power` in the same units. -/
def pitch (rounding : Rounding) (power : Int) : Nat :=
  Nat.pow 10 power.toNat * Nat.pow 2 (-rounding.exponent).toNat

/-- The point of the grid of `10 ^ power` that is in the interval and next to the number. -/
def pointOn? (rounding : Rounding) (power : Int) : Option Nat :=
  let pitch := rounding.pitch power
  let value := rounding.measure power rounding.quarters
  let low := rounding.measure power (rounding.quarters - rounding.below)
  let high := rounding.measure power (rounding.quarters + rounding.above)
  let lower := value / pitch
  let lowerIn := low < lower * pitch || (rounding.closed && low = lower * pitch)
  let upperIn := (lower + 1) * pitch < high || (rounding.closed && (lower + 1) * pitch = high)
  let upperNear := pitch ≤ 2 * (value - lower * pitch)
  if upperIn && (!lowerIn || upperNear) then some (lower + 1)
  else if lowerIn then some lower
  else none

/-- The powers of ten that may be the grid of a double, coarsest first. -/
def powers : List Int :=
  (List.range 660).map fun (index : Nat) => 309 - (index : Int)

/-- The decimal with the fewest digits in the interval. -/
def shortest (rounding : Rounding) : Decimal :=
  (powers.findSome? fun power =>
    (rounding.pointOn? power).map fun coefficient => ⟨coefficient, power⟩).getD default

end Rounding

/-- The digits of a decimal without an exponent; a point with a digit on each side is always there.
-/
def positional (decimal : Decimal) : List Char :=
  let digits := Text.numeral decimal.coefficient
  if 0 ≤ decimal.exponent then
    digits ++ List.replicate decimal.exponent.toNat '0' ++ ['.', '0']
  else
    let places := (-decimal.exponent).toNat
    let filled := List.replicate (places + 1 - digits.length) '0' ++ digits
    filled.take (filled.length - places) ++ '.' :: filled.drop (filled.length - places)

/-- The text of a finite double. -/
def floatChars (value : Float) : List Char :=
  let bits := value.toBits.toNat
  let fractionBound := Nat.pow 2 52
  let signBit := Nat.pow 2 63
  let sign := if bits < signBit then [] else ['-']
  let magnitude := bits % signBit
  let decimal :=
    if magnitude = 0 then ⟨0, 0⟩
    else (Rounding.ofFields (magnitude % fractionBound) (magnitude / fractionBound)).shortest
  sign ++ positional decimal

end Decimal

end BuildMatrix
