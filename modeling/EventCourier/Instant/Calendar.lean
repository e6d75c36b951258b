import EventCourier.Number.Total

/-!
# The civil calendar

Dates of the proleptic Gregorian calendar, with a year 0, counted in days from the first of January of that
year.
-/

namespace EventCourier.Calendar

/-- Every fourth year, but of the full centuries only every fourth. -/
def isLeap (year : Int) : Bool := year % 4 == 0 && (year % 100 != 0 || year % 400 == 0)

/-- The days from the start of year 0 to the start of a year. -/
def daysBeforeYear (year : Int) : Int :=
  365 * year + (year + 3) / 4 - (year + 99) / 100 + (year + 399) / 400

/-- How long the months are. -/
def monthLengths (leap : Bool) : List Nat :=
  [31, if leap then 29 else 28, 31, 30, 31, 30, 31, 31, 30, 31, 30, 31]

/-- The length of a month, which counts from 1; none past December. -/
def monthLength? (leap : Bool) : Nat → Option Nat
  | 0 => none
  | month + 1 => (monthLengths leap)[month]?

/-- The days of a year before a month, which counts from 1. -/
def daysBeforeMonth (leap : Bool) (month : Nat) : Nat := total ((monthLengths leap).take (month - 1))

/-- A date. -/
structure Date where
  year : Int
  month : Nat
  day : Nat
deriving DecidableEq, Repr

/-- The years that instants can lie in. -/
def yearInRange (year : Int) : Bool := decide (-262143 ≤ year ∧ year ≤ 262142)

/-- True if the calendar has the date. -/
def Date.exists (d : Date) : Bool :=
  yearInRange d.year && match monthLength? (isLeap d.year) d.month with
    | some length => decide (1 ≤ d.day ∧ d.day ≤ length)
    | none => false

/-- The number of a date's day. -/
def Date.dayNumber (d : Date) : Int :=
  daysBeforeYear d.year + daysBeforeMonth (isLeap d.year) d.month + d.day - 1

/-- The year a day lies in: the mean length of a year gives it up to one. -/
def yearOfDay (day : Int) : Int :=
  let guess := day * 400 / 146097
  if day < daysBeforeYear guess then guess - 1
  else if daysBeforeYear (guess + 1) ≤ day then guess + 1
  else guess

/-- The month and the day in it, given the months from `month` on and the days past the start of the first
of them. -/
def monthAndDay : List Nat → (month rest : Nat) → Nat × Nat
  | [], month, rest => (month, rest + 1)
  | length :: later, month, rest =>
    if rest < length then (month, rest + 1) else monthAndDay later (month + 1) (rest - length)

/-- The date of a day. -/
def Date.ofDayNumber (day : Int) : Date :=
  let year := yearOfDay day
  let (month, dayOfMonth) := monthAndDay (monthLengths (isLeap year)) 1 (day - daysBeforeYear year).toNat
  ⟨year, month, dayOfMonth⟩

/-- The day that instants are counted from, 1970-01-01. -/
def epochDay : Int := 719528

end EventCourier.Calendar
