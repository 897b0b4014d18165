import Cohort.Aggregate.Scan
import Cohort.Report.Basic
set_option autoImplicit false

/-!
# Settings

## Main definitions

* `Cohort.Settings` — what can be set for a service.
* `Cohort.Settings.limits` — when a scan stops early under the settings.
-/

namespace Cohort

/-- What can be set for evaluations. -/
structure EvaluationSettings where
  /-- The number of events that a scan may look at. -/
  maxEventsPerScan : Nat := 100000
  /-- The milliseconds that a scan may take; zero is no bound. -/
  scanTimeBudget : Nat := 250
  /-- The number of profiles evaluated side by side; zero leaves it to the machine. -/
  workerThreads : Nat := 0
deriving DecidableEq, Repr

/-- What can be set for a service. -/
structure Settings where
  /-- The name of the machine. -/
  nodeId : String := "audience-01"
  /-- What is set for evaluations. -/
  evaluation : EvaluationSettings := {}
  /-- What is set for the pages of reports. -/
  reporting : Report.Paging := ⟨50, 1000⟩
deriving DecidableEq, Repr

namespace Settings

/-- The number of events that a scan may look at, which is never zero. -/
def scanLength (s : Settings) : Nat :=
  max 1 s.evaluation.maxEventsPerScan

/-- The milliseconds that a scan may take, if they are bounded. -/
def timeBudget? (s : Settings) : Option Nat :=
  if s.evaluation.scanTimeBudget = 0 then none else some s.evaluation.scanTimeBudget

/-- When a scan stops early, as long as its time does not run out. -/
def limits (s : Settings) : ScanLimits :=
  ⟨some s.scanLength, false⟩

end Settings

end Cohort
