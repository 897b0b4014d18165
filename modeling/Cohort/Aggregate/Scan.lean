import Cohort.Aggregate.Basic
import Cohort.Profile
set_option autoImplicit false

/-!
# Event scans

A scan goes through the events of a profile in the order of their arrival and keeps those that
count. It is bounded: it stops before an event for which there is no room or no time left, and says
that it did.

## Main definitions

* `Cohort.ScanLimits` — when a scan stops.
* `Cohort.Scan` — what a scan kept.
* `Cohort.Scan.run` — the scan of events.
-/

namespace Cohort

/-- When a scan stops early. -/
structure ScanLimits where
  /-- The number of events that a scan may look at, if it is bounded. -/
  maxEvents : Option Nat
  /-- Whether the time is up whenever a scan looks at the clock. -/
  outOfTime : Bool
deriving DecidableEq, Repr

namespace ScanLimits

/-- No limits. -/
def unlimited : ScanLimits := ⟨none, false⟩

/-- How many events lie between two looks at the clock. -/
def clockInterval : Nat := 256

/-- Whether a scan stops after so many events when there is another. -/
def stopAt (limits : ScanLimits) (scanned : Nat) : Bool :=
  limits.maxEvents.any (· ≤ scanned) ||
    (limits.outOfTime && 0 < scanned && scanned % clockInterval == 0)

end ScanLimits

/-- What a scan kept. -/
structure Scan where
  /-- The events that count, in the order of their arrival. -/
  events : List Event
  /-- The number of events that the scan looked at. -/
  scanned : Nat
  /-- Whether it stopped early. -/
  degraded : Bool
deriving DecidableEq

namespace Scan

/-- A scan after `scanned` events. -/
def runFrom (limits : ScanLimits) (counts : Event → Bool) (scanned : Nat) : List Event → Scan
  | [] => ⟨[], scanned, false⟩
  | e :: es =>
    if limits.stopAt scanned then ⟨[], scanned, true⟩
    else
      let rest := runFrom limits counts (scanned + 1) es
      { rest with events := if counts e then e :: rest.events else rest.events }

/-- Whether an event has the name, if one is given, lies in the window and passes the
constraints. -/
def counts (window : Window) (name : Option String) (filters : List Constraint) (e : Event) :
    Bool :=
  name.all (e.name = ·) && window.contains e.timestamp &&
    Constraint.allAccept filters e.property?

/-- The scan of the events of a profile. -/
def run (limits : ScanLimits) (window : Window) (name : Option String)
    (filters : List Constraint) (events : List Event) : Scan :=
  runFrom limits (counts window name filters) 0 events

end Scan

end Cohort
