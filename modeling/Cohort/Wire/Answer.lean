import Cohort.Service.Sweep
import Cohort.Wire.Accepted
import Cohort.Wire.Report
set_option autoImplicit false

/-!
# Answers in JSON

Answers are only written, with their members in the order in which people read them.

## Main definitions

* `toJson` of event queries, memberships, computed values, sweeps and the summaries of fixtures.
-/

namespace Cohort

/-- The JSON form of an event query: the profile, the event and the window. -/
def EventQuery.toJson (q : EventQuery) : Json :=
  .array [.string q.profileId, .ofOption .string q.eventName,
    .ofOption (fun w => .array [w.start.toJson, w.stop.toJson]) q.window]

/-- The JSON form of a membership. -/
def Membership.toJson (m : Membership) : Json :=
  .object [("matched", .bool m.matched), ("degraded", .bool m.degraded)]

/-- The JSON form of the value of a computed field. -/
def ComputedValue.toJson (v : ComputedValue) : Json :=
  .object [("field", .string v.field), ("dataType", .string v.dataType.name), ("value", v.value),
    ("degraded", .bool v.degraded)]

/-- The JSON form of a sweep that took so many milliseconds. -/
def Sweep.toJson (s : Sweep) (elapsedMillis : Nat) : Json :=
  .object [("projectId", .string s.projectId), ("segmentId", .string s.segmentId.write),
    ("segmentName", .string s.segmentName), ("evaluated", .ofInt s.evaluated),
    ("members", .array (s.members.map .string)), ("degraded", .array (s.degraded.map .string)),
    ("failed", .array (s.failed.map .string)), ("cancelled", .bool s.cancelled),
    ("elapsedMs", .ofInt elapsedMillis)]

/-- The JSON form of what a fixture brought in. -/
def Fixture.Summary.toJson (s : Summary) : Json :=
  .object [("projectId", .string s.projectId), ("eventSchemas", .ofInt s.eventSchemas),
    ("profileProperties", .ofInt s.profileProperties),
    ("computedSchemas", .ofInt s.computedSchemas),
    ("segments", .object (s.segments.entries.map fun (name, id) => (name, .string id.write))),
    ("profiles", .ofInt s.profiles), ("events", .ofInt s.events)]

end Cohort
