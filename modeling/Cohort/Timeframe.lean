import Cohort.Error
set_option autoImplicit false

/-!
# Timeframes

A timeframe says which part of the past counts. Relative to a present it becomes a window, which
holds its start and not its end.

## Main definitions

* `Cohort.Timeframe.Spec` — a timeframe as it is submitted.
* `Cohort.Timeframe` — a timeframe that was accepted.
* `Cohort.Timeframe.window` — the window that it means at a present.
-/

namespace Cohort

/-- A unit of time. -/
inductive TimeUnit where
  | minutes
  | hours
  | days
  | weeks
  | months
  | years
deriving DecidableEq, Repr

namespace TimeUnit

/-- The name of a unit. -/
def name : TimeUnit → String
  | .minutes => "minutes"
  | .hours => "hours"
  | .days => "days"
  | .weeks => "weeks"
  | .months => "months"
  | .years => "years"

/-- The name of one of a unit. -/
def singular : TimeUnit → String
  | .minutes => "minute"
  | .hours => "hour"
  | .days => "day"
  | .weeks => "week"
  | .months => "month"
  | .years => "year"

/-- All units. -/
def all : List TimeUnit := [.minutes, .hours, .days, .weeks, .months, .years]

/-- The unit with a name, of one or several, which may have capitals and blanks around it. -/
def ofName? (s : String) : Option TimeUnit :=
  all.find? fun u => u.name = Text.keyword s || u.singular = Text.keyword s

/-- The length of a unit in seconds, if it has one; otherwise its length in months. -/
def length : TimeUnit → Nat ⊕ Nat
  | .minutes => .inl 60
  | .hours => .inl 3600
  | .days => .inl 86400
  | .weeks => .inl 604800
  | .months => .inr 1
  | .years => .inr 12

end TimeUnit

/-- A part of time that holds its start and not its end. -/
structure Window where
  /-- The start. -/
  start : Instant
  /-- The end. -/
  stop : Instant
deriving DecidableEq

/-- Whether an instant lies in a window. -/
def Window.contains (w : Window) (t : Instant) : Bool :=
  !t.before w.start && t.before w.stop

/-- A part of the past. -/
inductive Timeframe where
  /-- The last so many units up to the present. -/
  | relative (value : Nat) (unit : TimeUnit)
  /-- The time between two instants, or from one up to the present. -/
  | absolute (start : Instant) (stop : Option Instant)
  /-- All of the past. -/
  | allTime
deriving DecidableEq

namespace Timeframe

/-- A timeframe as it is submitted. -/
inductive Spec where
  /-- The last so many units, the unit by its name. -/
  | relative (value : Int) (unit : String)
  /-- The time between two instants, or from one up to the present. -/
  | absolute (start : Instant) (stop : Option Instant)
  /-- All of the past. -/
  | allTime
deriving DecidableEq

/-- The timeframe that is meant, if the unit is known, the value fits 32 bits and the end is not
before the start. -/
def compile : Spec → Result Timeframe
  | .relative value unit =>
    match TimeUnit.ofName? unit with
    | none => .error (.config (.unknownTimeUnit unit))
    | some u =>
      if 0 ≤ value ∧ value < 0x100000000 then .ok (.relative value.toNat u)
      else .error (.config (.timeframeOutOfRange value))
  | .absolute start (some stop) =>
    if stop.before start then .error (.config (.timeframeInverted stop start))
    else .ok (.absolute start (some stop))
  | .absolute start none => .ok (.absolute start none)
  | .allTime => .ok .allTime

/-- The instant so many units before another, or the earliest of all if there is none. -/
def goBack (now : Instant) (value : Nat) (unit : TimeUnit) : Instant :=
  let earlier? :=
    match unit.length with
    | .inl seconds => now.addMillis? (-(1000 * (value * seconds : Nat) : Int))
    | .inr months => now.subtractMonths? (value * months)
  earlier?.getD Instant.min

/-- The window that a timeframe means at a present. -/
def window (now : Instant) : Timeframe → Window
  | .relative value unit => ⟨goBack now value unit, now⟩
  | .absolute start stop => ⟨start, stop.getD now⟩
  | .allTime => ⟨Instant.min, now⟩

end Timeframe

end Cohort
