import Cohort.Registry.Basic
import Cohort.Store
set_option autoImplicit false

/-!
# Fixtures

A fixture is a project in one piece: its definitions, profiles and events. Loading it submits the
definitions in order and stops at the first that is refused; profiles and events are stored only
after all definitions were accepted.

## Main definitions

* `Cohort.Fixture` — a project in one piece.
* `Cohort.Fixture.load` — a registry and a store with a fixture loaded.
-/

namespace Cohort

/-- A project in one piece. -/
structure Fixture where
  /-- The name of the project. -/
  projectId : String
  /-- The declared events. -/
  eventSchemas : List EventSchema.Spec
  /-- The declared attributes. -/
  profileProperties : List Field.Spec
  /-- The computed fields. -/
  computedSchemas : List ComputedField.Spec
  /-- The segments. -/
  segments : List Segment.Spec
  /-- The profiles. -/
  profiles : List Profile
  /-- The events. -/
  events : List Event
deriving DecidableEq

/-- What a fixture brought in. -/
structure Fixture.Summary where
  /-- The name of the project. -/
  projectId : String
  /-- The number of declared events. -/
  eventSchemas : Nat
  /-- The number of declared attributes. -/
  profileProperties : Nat
  /-- The number of computed fields. -/
  computedSchemas : Nat
  /-- The identifiers of the segments under their names. -/
  segments : Index String Uuid
  /-- The number of profiles. -/
  profiles : Nat
  /-- The number of events. -/
  events : Nat
deriving DecidableEq

/-- Changes of a registry, up to the first that is refused. -/
abbrev Registry.Changes (α : Type) := ExceptT Error (StateM Registry) α

/-- A change of a registry as one of several. -/
def Registry.Changes.of {α : Type} (change : Registry → Registry.Outcome α) : Changes α :=
  ExceptT.mk change

namespace Fixture

/-- Submits definitions one after the other. -/
def submitAll {σ α : Type} (specs : List σ) (create : Registry → σ → Registry.Outcome α) :
    Registry.Changes (List α) :=
  specs.mapM fun spec => .of fun r => create r spec

/-- Submits the definitions of a fixture. The segments get the stamps of their places. -/
def define (f : Fixture) (stamp : Nat → Stamp) : Registry.Changes (List Segment) := do
  discard <| submitAll f.eventSchemas (·.createEventSchema f.projectId)
  discard <| submitAll f.profileProperties (·.createProfileProperty f.projectId)
  discard <| submitAll f.computedSchemas (·.createComputedField f.projectId)
  submitAll f.segments.zipIdx fun r (spec, place) => r.createSegment f.projectId (stamp place) spec

/-- What a fixture brings in, with the segments that it makes. -/
def summary (f : Fixture) (segments : List Segment) : Summary where
  projectId := f.projectId
  eventSchemas := f.eventSchemas.length
  profileProperties := f.profileProperties.length
  computedSchemas := f.computedSchemas.length
  segments := .ofList (segments.map fun g => (g.name, g.id))
  profiles := f.profiles.length
  events := f.events.length

/-- A store with the profiles and events of a fixture. -/
def fill (f : Fixture) (store : Store) : Store :=
  let withProfiles := f.profiles.foldl (·.upsertProfile f.projectId ·) store
  f.events.foldl (·.appendEvent f.projectId ·) withProfiles

/-- A registry and a store with a fixture loaded. If a definition is refused, those before it stay
and the store is as it was. -/
def load (f : Fixture) (stamp : Nat → Stamp) (r : Registry) (store : Store) :
    Result Summary × Registry × Store :=
  match f.define stamp r with
  | (.ok segments, r) => (.ok (f.summary segments), r, f.fill store)
  | (.error e, r) => (.error e, r, store)

end Fixture

end Cohort
