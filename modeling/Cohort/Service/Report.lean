import Cohort.Report.Table
import Cohort.Service.Basic
set_option autoImplicit false

/-!
# Report requests

A report reads the events of every profile, and no more of them than its columns can count.

## Main definitions

* `Cohort.Service.report` — the table of a submitted report.
-/

namespace Cohort.Service

/-- The events of a profile that a report reads. -/
def rowQuery (s : Service) (plan : Report.Plan) (profileId : String) : EventQuery :=
  match plan.eventScope? with
  | some a => s.scopedQuery profileId a
  | none => .all profileId

/-- A profile as a report sees it. A request that was cancelled stops here. -/
def reportSubject (s : Service) (project : String) (snapshot : Snapshot) (plan : Report.Plan)
    (cancelled : Bool) (profile : Profile) : Request Subject := do
  if cancelled then throw .cancelled
  return s.subject snapshot profile (← s.events project (s.rowQuery plan profile.id))

/-- The table of a submitted report. -/
def report (s : Service) (project : String) (spec : Report.Spec) (cancelled : Bool) :
    Request Report.Table := do
  let snapshot := s.registry.snapshot project
  let plan ← .of (Report.compile s.settings.reporting snapshot spec)
  let profiles ← .of (s.source.profiles project)
  let subjects ← profiles.mapM (s.reportSubject project snapshot plan cancelled)
  return plan.table s.now subjects

end Cohort.Service
