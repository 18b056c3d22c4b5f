import BuildMatrix.Calendar.Date

/-!
# Lifecycle

What is known about the end of a version's support: a date, no date yet, or that it has ended at an
unknown date. A version is past its end of life from the scheduled day on, and once past it stays
so.
-/

namespace BuildMatrix

/-- What is known about the end of support. -/
inductive Lifecycle where
  /-- Support ends on this day. -/
  | scheduled (date : Date)
  /-- No end of support has been announced. -/
  | unscheduled
  /-- Support has ended; the day is not known. -/
  | ended
deriving DecidableEq

/-- One release cycle as a registry reports it; the identifier may be any text. -/
structure ReleaseCycle where
  /-- The identifier, normally a version. -/
  cycle : String
  /-- What is known about the end of its support. -/
  lifecycle : Lifecycle
deriving DecidableEq

namespace Lifecycle

/-- Support is over on `today`; the scheduled day itself counts. -/
def isEndOfLife (lifecycle : Lifecycle) (today : Date) : Bool :=
  match lifecycle with
  | scheduled date => date ≤ today
  | unscheduled => false
  | ended => true

/-- The scheduled day, where there is one. -/
def date? : Lifecycle → Option Date
  | scheduled date => some date
  | _ => none

/-- Once past the end of life, always past it. -/
theorem isEndOfLife_mono {lifecycle : Lifecycle} {today later : Date} (order : today ≤ later)
    (past : lifecycle.isEndOfLife today = true) : lifecycle.isEndOfLife later = true := by
  cases lifecycle with
  | scheduled date =>
    simp only [isEndOfLife, decide_eq_true_eq] at past ⊢
    exact Date.le_trans past order
  | unscheduled => simp [isEndOfLife] at past
  | ended => rfl

end Lifecycle

end BuildMatrix
