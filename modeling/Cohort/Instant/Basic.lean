import Cohort.Instant.Calendar
set_option autoImplicit false

/-!
# Instants

An instant is a point in coordinated universal time with nanoseconds. Days have 86400 seconds; a
leap second is the second before it with more than a billion nanoseconds. Instants lie in the years
from -262143 to 262142.

## Main definitions

* `Cohort.Instant` — a point in time.
* `Cohort.Instant.ofMillis?` — the instant so many milliseconds after 1 January 1970.
* `Cohort.Instant.addMillis?`, `Cohort.Instant.millisSince` — shifts and distances.
* `Cohort.Instant.subtractMonths?` — the same time in an earlier month.
-/

namespace Cohort

namespace Instant

/-- The seconds of a day. -/
def secondsPerDay : Nat := 86400

/-- The nanoseconds of a second. -/
def nanosPerSecond : Nat := 1000000000

/-- The first second of the year -262143. -/
def minSeconds : Int := -8334601228800

/-- The last second of the year 262142. -/
def maxSeconds : Int := 8210266876799

end Instant

/-- A point in time. -/
structure Instant where
  /-- The seconds since the start of 1970. -/
  seconds : Int
  /-- The nanoseconds of the second; a billion or more of them in a leap second. -/
  nanos : Nat
  /-- The seconds lie in the years that instants cover. -/
  seconds_range : Instant.minSeconds ≤ seconds ∧ seconds ≤ Instant.maxSeconds := by decide
  /-- A leap second is one second long. -/
  nanos_lt : nanos < 2 * Instant.nanosPerSecond := by decide
deriving DecidableEq

namespace Instant

/-- The start of 1970 lies in the years that instants cover. -/
theorem zero_range : minSeconds ≤ 0 ∧ 0 ≤ maxSeconds := by decide

/-- A whole second has few enough nanoseconds: none. -/
theorem zero_lt_nanos : 0 < 2 * nanosPerSecond := by decide

/-- The earliest instant. -/
def min : Instant := ⟨minSeconds, 0, by decide, by decide⟩

/-- The instant with these seconds and nanoseconds, if it is one. -/
def ofParts? (seconds : Int) (nanos : Nat) : Option Instant :=
  if h : (minSeconds ≤ seconds ∧ seconds ≤ maxSeconds) ∧ nanos < 2 * nanosPerSecond then
    some ⟨seconds, nanos, h.1, h.2⟩
  else none

/-- Whether one instant comes before another. -/
def before (a b : Instant) : Bool :=
  decide (a.seconds < b.seconds) || (a.seconds == b.seconds && decide (a.nanos < b.nanos))

/-- How two instants compare in time. -/
def order (a b : Instant) : Ordering :=
  (compare a.seconds b.seconds).then (compare a.nanos b.nanos)

/-- The number of the day, counted from 1 January 1970. -/
def dayNumber (t : Instant) : Int :=
  t.seconds / secondsPerDay

/-- The seconds since the start of the day. -/
def secondOfDay (t : Instant) : Int :=
  t.seconds % secondsPerDay

/-- The date of an instant. -/
def date (t : Instant) : Date :=
  Date.ofDayNumber t.dayNumber

/-- Whether an instant lies in a leap second. -/
def isLeapSecond (t : Instant) : Bool :=
  nanosPerSecond ≤ t.nanos

/-- The instant so many milliseconds after the start of 1970. -/
def ofMillis? (millis : Int) : Option Instant :=
  ofParts? (millis / 1000) ((millis % 1000).toNat * 1000000)

/-- The instant with these seconds and nanoseconds, where the nanoseconds may be negative or fill
whole seconds. -/
def normalized? (seconds nanos : Int) : Option Instant :=
  ofParts? (seconds + nanos / nanosPerSecond) (nanos % nanosPerSecond).toNat

/-- The instant so many milliseconds later. A leap second counts as the second before it for what
comes later and as the second after it for what comes earlier. -/
def addMillis? (t : Instant) (millis : Int) : Option Instant :=
  let seconds := millis.tdiv 1000
  let nanos := millis.tmod 1000 * 1000000
  let held : Int := t.nanos
  if t.isLeapSecond then
    if 0 < seconds || (0 < nanos && 2 * nanosPerSecond - nanos ≤ held) then
      normalized? (t.seconds + seconds) (held - nanosPerSecond + nanos)
    else if seconds < 0 then
      normalized? (t.seconds + 1 + seconds) (held - nanosPerSecond + nanos)
    else ofParts? t.seconds (held + nanos).toNat
  else normalized? (t.seconds + seconds) (held + nanos)

/-- The nanoseconds from one instant to another. A leap second between two times of day counts. -/
def nanosSince (a b : Instant) : Int :=
  let days := a.dayNumber - b.dayNumber
  let seconds := a.secondOfDay - b.secondOfDay
  let leap : Int :=
    if b.secondOfDay < a.secondOfDay && b.isLeapSecond then 1
    else if a.secondOfDay < b.secondOfDay && a.isLeapSecond then -1
    else 0
  (days * secondsPerDay + seconds + leap) * nanosPerSecond + ((a.nanos : Int) - b.nanos)

/-- The whole milliseconds from one instant to another. -/
def millisSince (a b : Instant) : Int :=
  (nanosSince a b).tdiv 1000000

/-- The instant on another day at the same time of day. -/
def onDay? (t : Instant) (day : Int) : Option Instant :=
  ofParts? (day * secondsPerDay + t.secondOfDay) t.nanos

/-- The same time of day so many months earlier, if instants go back as far. -/
def subtractMonths? (t : Instant) (months : Nat) : Option Instant :=
  t.onDay? (t.date.subtractMonths months).dayNumber

/-- The start of a date, if it is an instant. -/
def ofDate? (d : Date) : Option Instant :=
  if d.isValid then ofParts? (d.dayNumber * secondsPerDay) 0 else none

end Instant

end Cohort
