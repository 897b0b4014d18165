set_option autoImplicit false

/-!
# The calendar

Days are counted from 1 January 1970 in the Gregorian calendar, which is continued without end in
both directions; the year before year 1 is year 0.

## Main definitions

* `Cohort.Date` — a year, a month and a day.
* `Cohort.Date.dayNumber`, `Cohort.Date.ofDayNumber` — the count of days.
* `Cohort.Date.subtractMonths` — the same day of an earlier month.
-/

namespace Cohort

/-- A year, a month and a day of the month, both counted from one. -/
structure Date where
  /-- The year; year 0 comes before year 1. -/
  year : Int
  /-- The month, from one. -/
  month : Nat
  /-- The day of the month, from one. -/
  day : Nat
deriving DecidableEq, Repr

namespace Date

/-- Whether a year has a 29 February. -/
def isLeapYear (year : Int) : Bool :=
  year % 4 == 0 && (year % 100 != 0 || year % 400 == 0)

/-- The lengths of the months of a year. -/
def monthLengths (year : Int) : List Nat :=
  [31, if isLeapYear year then 29 else 28, 31, 30, 31, 30, 31, 31, 30, 31, 30, 31]

/-- The length of a month; no days for a month that is not one of the twelve. -/
def monthLength (year : Int) (month : Nat) : Nat :=
  if month = 0 then 0 else (monthLengths year).getD (month - 1) 0

/-- Whether the month has the day. -/
def isValid (d : Date) : Bool :=
  1 ≤ d.day && d.day ≤ monthLength d.year d.month

/-- The days between 1 January of year 1 and 1 January of a year. -/
def daysBeforeYear (year : Int) : Int :=
  let past := year - 1
  365 * past + past / 4 - past / 100 + past / 400

/-- The days of a year before one of its months. -/
def daysBeforeMonth (year : Int) (month : Nat) : Nat :=
  ((monthLengths year).take (month - 1)).foldl (· + ·) 0

/-- The days between 1 January of year 1 and 1 January 1970. -/
def epochOffset : Int := 719162

/-- The days from 1 January 1970 to a date. -/
def dayNumber (d : Date) : Int :=
  daysBeforeYear d.year + daysBeforeMonth d.year d.month + (d.day - 1) - epochOffset

/-- The year in which a day lies, the day counted from 1 January of year 1. The mean length of a
year gives it up to one, and the first days of the neighbouring years decide. -/
def yearOfDay (n : Int) : Int :=
  let guess := 400 * n / 146097 + 1
  if n < daysBeforeYear guess then guess - 1
  else if daysBeforeYear (guess + 1) ≤ n then guess + 1
  else guess

/-- The month and day of the day that `n` others precede, counted through months of the given
lengths from `month` on. -/
def monthAndDay (month : Nat) : (lengths : List Nat) → (n : Nat) → Nat × Nat
  | [], n => (month, n + 1)
  | length :: lengths, n =>
    if n < length then (month, n + 1) else monthAndDay (month + 1) lengths (n - length)

/-- The date so many days after 1 January 1970. -/
def ofDayNumber (n : Int) : Date :=
  let n := n + epochOffset
  let year := yearOfDay n
  let (month, day) := monthAndDay 1 (monthLengths year) (n - daysBeforeYear year).toNat
  ⟨year, month, day⟩

/-- The date so many months earlier: the same day, or the last one of a shorter month. -/
def subtractMonths (d : Date) (months : Nat) : Date :=
  let target := 12 * d.year + (d.month - 1 : Int) - months
  let year := target / 12
  let month := (target % 12).toNat + 1
  ⟨year, month, min d.day (monthLength year month)⟩

end Date

end Cohort
