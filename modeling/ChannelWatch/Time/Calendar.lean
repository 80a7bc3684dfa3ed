/-!
# The calendar

Dates of the proleptic Gregorian calendar and their day numbers, counted from 1970-01-01. Years before 1 are written
with the year 0 and negative years.
-/

namespace ChannelWatch.Calendar

/-- A date. -/
structure Date where
  year : Int
  month : Nat
  day : Nat
  deriving DecidableEq

/-- A year with 366 days. -/
def isLeap (year : Int) : Bool :=
  (year % 4 == 0 && year % 100 != 0) || year % 400 == 0

/-- The days of each month. -/
def monthLengths (leap : Bool) : List Nat :=
  [31, if leap then 29 else 28, 31, 30, 31, 30, 31, 31, 30, 31, 30, 31]

/-- The days of a year before its `month`-th month begins. -/
def daysBeforeMonth (leap : Bool) (month : Nat) : Nat :=
  ((monthLengths leap).take (month - 1)).foldr (· + ·) 0

/-- The days from 0001-01-01 to the first day of a year. -/
def daysBeforeYear (year : Int) : Int :=
  365 * (year - 1) + (year - 1) / 4 - (year - 1) / 100 + (year - 1) / 400

/-- The day number of 0001-01-01 is this much below zero. -/
def epochOffset : Int :=
  719162

/-- The date exists. -/
def Date.isValid (d : Date) : Bool :=
  1 ≤ d.month && d.month ≤ 12 && 1 ≤ d.day && d.day ≤ (monthLengths (isLeap d.year)).getD (d.month - 1) 0

/-- The number of the date's day. -/
def Date.dayNumber (d : Date) : Int :=
  daysBeforeYear d.year + daysBeforeMonth (isLeap d.year) d.month + d.day - 1 - epochOffset

/-- The month that the `n`-th day of a year lies in, counted from day 0, and its day in that month: `lengths` are the
months from the `month`-th on. -/
def monthOfDay : Nat → List Nat → Nat → Nat × Nat
  | month, [], n => (month, n + 1)
  | month, length :: rest, n => if n < length then (month, n + 1) else monthOfDay (month + 1) rest (n - length)

/-- The date of a day number: whole cycles of 400 years, then centuries, groups of four years and single years, of which
the last may be a day longer. -/
def Date.ofDayNumber (n : Int) : Date :=
  let days := n + epochOffset
  let r := (days % 146097).toNat
  let century := min 3 (r / 36524)
  let r := r - century * 36524
  let group := r / 1461
  let r := r % 1461
  let single := min 3 (r / 365)
  let year := days / 146097 * 400 + (century * 100 + group * 4 + single + 1 : Nat)
  let (month, day) := monthOfDay 1 (monthLengths (isLeap year)) (r - single * 365)
  ⟨year, month, day⟩

end ChannelWatch.Calendar
