import Cohort.Membership
import Cohort.Registry.Basic
import Cohort.Settings
import Cohort.Store
set_option autoImplicit false

/-!
# Services

A service answers requests about the profiles of a source under the definitions of a registry, all
at one present. It records the event queries of a request, since a request about one aggregate
reads no more events than that can count.

## Main definitions

* `Cohort.Service` — what requests are answered from.
* `Cohort.Service.Request` — an answer or an error, with the event queries made.
* `Cohort.Service.membership`, `Cohort.Service.computedValue`, `Cohort.Service.computedValues` —
  requests about one profile.
-/

namespace Cohort

/-- What requests are answered from. -/
structure Service where
  /-- The settings. -/
  settings : Settings
  /-- The definitions. -/
  registry : Registry
  /-- The profiles and events. -/
  source : Source
  /-- The present. -/
  now : Instant

namespace Service

/-- An answer or an error, with the event queries made so far. -/
abbrev Request (α : Type) := ExceptT Error (StateM (List EventQuery)) α

/-- The answer of a request, with its event queries in order. -/
def Request.answer {α : Type} (request : Request α) : Result α × List EventQuery :=
  request.run []

/-- A step that makes no event query. -/
def Request.of {α : Type} (result : Result α) : Request α :=
  ExceptT.mk (pure result)

/-- The events that a query gives. -/
def events (s : Service) (project : String) (q : EventQuery) : Request (List Event) := do
  modifyThe (List EventQuery) (· ++ [q])
  .of (s.source.events project q)

/-- The profile of a project with an identifier. -/
def profile (s : Service) (project profileId : String) : Request Profile := do
  match ← .of (s.source.profile? project profileId) with
  | some p => return p
  | none => throw (.notFound .profile profileId)

/-- A profile with events as an evaluation sees it. -/
def subject (s : Service) (snapshot : Snapshot) (profile : Profile) (events : List Event) :
    Subject :=
  ⟨snapshot, profile, events, s.settings.limits, s.now⟩

/-- The profile that a query is about, with the events that it gives. -/
def load (s : Service) (project : String) (snapshot : Snapshot) (q : EventQuery) :
    Request Subject := do
  let profile ← s.profile project q.profileId
  return s.subject snapshot profile (← s.events project q)

/-- The events of a profile that an aggregate may count. -/
def scopedQuery (s : Service) (profileId : String) (a : Aggregate) : EventQuery :=
  ⟨profileId, a.eventName, some (a.timeframe.window s.now)⟩

/-- Whether a profile is a member of a segment. -/
def membership (s : Service) (project profileId : String) (segmentId : Uuid) :
    Request Membership := do
  let segment ← .of (s.registry.segment project segmentId)
  let subject ← s.load project (s.registry.snapshot project) (.all profileId)
  return segment.membership subject

/-- The events that a computed field of a profile is worked out from: those that an aggregate may
count, otherwise all. -/
def fieldQuery (s : Service) (snapshot : Snapshot) (profileId field : String) : EventQuery :=
  match (snapshot.computed.get? field).map ComputedField.computation with
  | some (.aggregate a) => s.scopedQuery profileId a
  | _ => .all profileId

/-- The value of a computed field of a profile. -/
def computedValue (s : Service) (project profileId field : String) : Request ComputedValue := do
  let snapshot := s.registry.snapshot project
  let subject ← s.load project snapshot (s.fieldQuery snapshot profileId field)
  .of (subject.computedValue field Findings.none).1

/-- The values of all computed fields of a profile under their names. -/
def computedValues (s : Service) (project profileId : String) : Request (Index String Json) := do
  let subject ← s.load project (s.registry.snapshot project) (.all profileId)
  return (subject.computedValues Findings.none).1

end Service

end Cohort
