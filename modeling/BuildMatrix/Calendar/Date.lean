/-!
# Calendar dates

Dates of the Gregorian calendar, extended to all the years from `firstYear` to `lastYear` with a
year zero. A date is a real day of its month by its type, and dates are ordered by year, month and
day.
-/

namespace BuildMatrix

namespace Calendar

/-- The first year that a date may have. -/
def firstYear : Int := -262143

/-- The last year that a date may have. -/
def lastYear : Int := 262142

/-- A year with a 29th of February. -/
def isLeap (year : Int) : Bool :=
  year % 4 = 0 && (year % 100 ≠ 0 || year % 400 = 0)

/-- The number of days of a month. -/
def daysInMonth (year : Int) (month : Nat) : Nat :=
  match month with
  | 2 => if isLeap year then 29 else 28
  | 4 | 6 | 9 | 11 => 30
  | _ => 31

/-- The three numbers name a day of the calendar. -/
def IsDay (year : Int) (month day : Nat) : Prop :=
  (firstYear ≤ year ∧ year ≤ lastYear) ∧ (1 ≤ month ∧ month ≤ 12) ∧
    (1 ≤ day ∧ day ≤ daysInMonth year month)

/-- Whether there is such a day in the calendar can be computed. -/
instance (year : Int) (month day : Nat) : Decidable (IsDay year month day) :=
  inferInstanceAs (Decidable (_ ∧ _))

end Calendar

/-- A day of the calendar. -/
structure Date where
  /-- The year; year zero precedes year one. -/
  year : Int
  /-- The month, from one. -/
  month : Nat
  /-- The day of the month, from one. -/
  day : Nat
  /-- The day exists. -/
  isDay : Calendar.IsDay year month day
deriving DecidableEq

namespace Date

/-- The day with these numbers, if there is one. -/
def ofNumbers? (year : Int) (month day : Nat) : Option Date :=
  if isDay : Calendar.IsDay year month day then some ⟨year, month, day, isDay⟩ else none

/-- Order by year, then month, then day. -/
instance : LE Date where
  le left right := left.year < right.year ∨ (left.year = right.year ∧
    (left.month < right.month ∨ (left.month = right.month ∧ left.day ≤ right.day)))

/-- Whether a day comes no later than another can be computed. -/
instance (left right : Date) : Decidable (left ≤ right) :=
  inferInstanceAs (Decidable (_ ∨ _))

/-- Days are ordered by year, then month, then day of the month. -/
theorem le_def {left right : Date} :
    left ≤ right ↔ left.year < right.year ∨ (left.year = right.year ∧
      (left.month < right.month ∨ (left.month = right.month ∧ left.day ≤ right.day))) := Iff.rfl

/-- A day comes no later than itself. -/
theorem le_refl (date : Date) : date ≤ date := by
  rw [le_def]
  omega

/-- What comes no later than an earlier day comes no later than a later one. -/
theorem le_trans {first second third : Date} (left : first ≤ second) (right : second ≤ third) :
    first ≤ third := by
  rw [le_def] at *
  omega

/-- Of two days, one comes no later than the other. -/
theorem le_total (left right : Date) : left ≤ right ∨ right ≤ left := by
  rw [le_def, le_def]
  omega

/-- Days of which neither comes later are the same. -/
theorem le_antisymm {left right : Date} (forward : left ≤ right) (backward : right ≤ left) :
    left = right := by
  cases left
  cases right
  simp only [le_def] at forward backward
  simp only [Date.mk.injEq]
  omega

end Date

end BuildMatrix
