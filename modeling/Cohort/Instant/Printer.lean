import Cohort.Instant.Basic
set_option autoImplicit false

/-!
# Writing instants

Instants are written as in RFC 3339 with the zone `Z`. Years outside four digits have a sign. The
fraction is left out, or has as many of three, six or nine digits as it needs; formula results are
cut to whole seconds.

## Main definitions

* `Cohort.Instant.write` — an instant with its fraction.
* `Cohort.Instant.writeSeconds` — an instant cut to whole seconds.
* `Cohort.Instant.describe` — an instant in a message.
-/

namespace Cohort.Instant

/-- A number with at least `width` digits. -/
def padded (width n : Nat) : String :=
  let digits := Nat.toDigits 10 n
  String.ofList (List.replicate (width - digits.length) '0' ++ digits)

/-- A year with at least four digits, under a sign if four digits do not hold it. -/
def writeYear (year : Int) : String :=
  if 0 ≤ year && year ≤ 9999 then padded 4 year.toNat
  else (if year < 0 then "-" else "+") ++ padded 4 year.natAbs

/-- A date as year, month and day. -/
def writeDate (d : Date) : String :=
  writeYear d.year ++ "-" ++ padded 2 d.month ++ "-" ++ padded 2 d.day

/-- The time of day in whole seconds; the second of a leap second is 60. -/
def writeTime (t : Instant) : String :=
  let second := t.secondOfDay.toNat
  padded 2 (second / 3600) ++ ":" ++ padded 2 (second / 60 % 60) ++ ":" ++
    padded 2 (second % 60 + if t.isLeapSecond then 1 else 0)

/-- The fraction of the second, with the point: nothing, or three, six or nine digits. -/
def writeFraction (t : Instant) : String :=
  let nanos := t.nanos % nanosPerSecond
  if nanos = 0 then ""
  else if nanos % 1000000 = 0 then "." ++ padded 3 (nanos / 1000000)
  else if nanos % 1000 = 0 then "." ++ padded 6 (nanos / 1000)
  else "." ++ padded 9 nanos

/-- An instant with its fraction. -/
def write (t : Instant) : String :=
  writeDate t.date ++ "T" ++ t.writeTime ++ t.writeFraction ++ "Z"

/-- An instant cut to whole seconds. -/
def writeSeconds (t : Instant) : String :=
  writeDate t.date ++ "T" ++ t.writeTime ++ "Z"

/-- An instant in a message. -/
def describe (t : Instant) : String :=
  writeDate t.date ++ " " ++ t.writeTime ++ t.writeFraction ++ " UTC"

end Cohort.Instant
