import Cohort.Settings
import Cohort.Wire.Record
set_option autoImplicit false

/-!
# Settings in JSON

## Main definitions

* `Cohort.Settings.ofDocument?` — the settings in a JSON document; what it leaves out has a default.
* `Cohort.Settings.toJson` — the settings as they were understood.
-/

namespace Cohort

open Json (Document)
open Wire (Record)

/-- What is set for evaluations. -/
def EvaluationSettings.ofDocument? (d : Document) : Option EvaluationSettings := do
  let held : EvaluationSettings := {}
  let r ← Record.read? ["max_events_per_scan", "scan_time_budget_ms", "worker_threads"] d
  return { maxEventsPerScan := ← r.orElse "max_events_per_scan" held.maxEventsPerScan Wire.nat64
           scanTimeBudget := ← r.orElse "scan_time_budget_ms" held.scanTimeBudget Wire.nat64
           workerThreads := ← r.orElse "worker_threads" held.workerThreads Wire.nat64 }

/-- What is set for the pages of reports. -/
def Report.Paging.ofDocument? (d : Document) : Option Report.Paging := do
  let held := ({} : Settings).reporting
  let r ← Record.read? ["default_page_size", "max_page_size"] d
  return { defaultSize := ← r.orElse "default_page_size" held.defaultSize Wire.nat64
           maxSize := ← r.orElse "max_page_size" held.maxSize Wire.nat64 }

/-- The settings of a service. -/
def Settings.ofDocument? (d : Document) : Option Settings := do
  let held : Settings := {}
  let r ← Record.read? ["node_id", "evaluation", "reporting"] d
  return { nodeId := ← r.orElse "node_id" held.nodeId Wire.text
           evaluation := ← r.orElse "evaluation" held.evaluation EvaluationSettings.ofDocument?
           reporting := ← r.orElse "reporting" held.reporting Report.Paging.ofDocument? }

/-- The JSON form of settings, with the bounds of a scan that follow from them. -/
def Settings.toJson (s : Settings) : Json :=
  .ofMembers [("nodeId", .string s.nodeId),
    ("maxEventsPerScan", .ofInt s.evaluation.maxEventsPerScan),
    ("scanTimeBudgetMs", .ofInt s.evaluation.scanTimeBudget),
    ("workerThreads", .ofInt s.evaluation.workerThreads),
    ("defaultPageSize", .ofInt s.reporting.defaultSize),
    ("maxPageSize", .ofInt s.reporting.maxSize),
    ("limits", .ofMembers [("maxEvents", .ofOption (.ofInt ·) s.limits.maxEvents),
      ("timeBudgetMs", .ofOption (.ofInt ·) s.timeBudget?)])]

end Cohort
