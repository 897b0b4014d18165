import Cohort.Registry.Snapshot
set_option autoImplicit false

/-!
# The registry

The registry holds a snapshot for every project. A change is checked and made on a copy of the
snapshot, and the copy takes its place only if the whole change succeeds; so a refused change leaves
all definitions as they were.

## Main definitions

* `Cohort.Registry` — the snapshots of all projects.
* `Cohort.Registry.change` — a change of one project.
* `Cohort.Registry.createComputedField` and its like — the operations on definitions.
-/

namespace Cohort

/-- The snapshots of all projects. -/
structure Registry where
  /-- The snapshots under the names of their projects. -/
  projects : Index String Snapshot

/-- A new registry with what an operation answers. A refused operation has a registry too: it makes
the project known. -/
abbrev Registry.Outcome (α : Type) := Result α × Registry

/-- The identifier and the time that a new or changed segment gets. -/
structure Stamp where
  /-- The identifier. -/
  id : Uuid
  /-- The time. -/
  time : Instant

namespace Registry

/-- The registry without projects. -/
def empty : Registry := ⟨.empty⟩

/-- The snapshot of a project; that of an unknown one is empty. -/
def snapshot (r : Registry) (project : String) : Snapshot :=
  (r.projects.get? project).getD (.empty project)

/-- A change of the snapshot of a project, with the next version. The project becomes known even if
the change is refused. -/
def change {α : Type} (r : Registry) (project : String)
    (edit : Snapshot → Result (α × Snapshot)) : Outcome α :=
  let held := r.snapshot project
  match edit held with
  | .ok (a, next) =>
    (.ok a, ⟨r.projects.insert project { next with version := held.version + 1 }⟩)
  | .error e => (.error e, ⟨r.projects.insert project held⟩)

/-- A change that starts with a definition to check; a definition that is refused changes
nothing. -/
def submit {α β : Type} (r : Registry) (project : String) (definition : Result α)
    (edit : α → Snapshot → Result (β × Snapshot)) : Outcome β :=
  match definition with
  | .ok a => r.change project (edit a)
  | .error e => (.error e, r)

/-- Refuses a definition that would change the name it is stored under. -/
def checkSameName (what held requested : String) : Result Unit :=
  if held = requested then .ok ()
  else .error (.validation (.immutableName what held requested))

/-- Refuses a name under which nothing is stored. -/
def checkPresent (kind : Kind) (name : String) (present : Bool) : Result Unit :=
  if present then .ok () else .error (.notFound kind name)

/-- What is stored under a name. -/
def found {α : Type} (kind : Kind) (name : String) : Option α → Result α
  | some a => .ok a
  | none => .error (.notFound kind name)

/-! ### Event schemas -/

/-- Declares an event. -/
def createEventSchema (r : Registry) (project : String) (spec : EventSchema.Spec) :
    Outcome EventSchema :=
  r.submit project (EventSchema.compile spec) fun schema s => do
    if s.eventSchemas.contains schema.eventName then
      throw (.conflict (.nameTaken .eventSchema schema.eventName))
    return (schema, { s with eventSchemas := s.eventSchemas.insert schema.eventName schema })

/-- The schema of an event that keeps its name. -/
def renewedEventSchema (name : String) (spec : EventSchema.Spec) : Result EventSchema := do
  let schema ← EventSchema.compile spec
  checkSameName "eventName" name schema.eventName
  return schema

/-- Replaces the declaration of an event. -/
def updateEventSchema (r : Registry) (project name : String) (spec : EventSchema.Spec) :
    Outcome EventSchema :=
  r.submit project (renewedEventSchema name spec) fun schema s => do
    checkPresent .eventSchema name (s.eventSchemas.contains name)
    return (schema, { s with eventSchemas := s.eventSchemas.insert name schema })

/-- Drops the declaration of an event. -/
def deleteEventSchema (r : Registry) (project name : String) : Outcome Unit :=
  r.change project fun s => do
    checkPresent .eventSchema name (s.eventSchemas.contains name)
    return ((), { s with eventSchemas := s.eventSchemas.erase name })

/-! ### Profile properties -/

/-- Declares a raw attribute. -/
def createProfileProperty (r : Registry) (project : String) (spec : Field.Spec) : Outcome Field :=
  r.submit project (Field.compile spec) fun field s => do
    s.checkAttributeFree field.field
    return (field, { s with profileProperties := s.profileProperties.insert field.field field })

/-- The declaration of an attribute that keeps its name. -/
def renewedProfileProperty (name : String) (spec : Field.Spec) : Result Field := do
  let field ← Field.compile spec
  checkSameName "field" name field.field
  return field

/-- Replaces the declaration of a raw attribute. -/
def updateProfileProperty (r : Registry) (project name : String) (spec : Field.Spec) :
    Outcome Field :=
  r.submit project (renewedProfileProperty name spec) fun field s => do
    checkPresent .profileProperty name (s.profileProperties.contains name)
    return (field, { s with profileProperties := s.profileProperties.insert name field })

/-- Drops the declaration of a raw attribute. -/
def deleteProfileProperty (r : Registry) (project name : String) : Outcome Unit :=
  r.change project fun s => do
    checkPresent .profileProperty name (s.profileProperties.contains name)
    return ((), { s with profileProperties := s.profileProperties.erase name })

/-! ### Computed fields -/

/-- Adds a computed field, unless fields would read one another in a cycle. -/
def createComputedField (r : Registry) (project : String) (spec : ComputedField.Spec) :
    Outcome ComputedField :=
  r.submit project (ComputedField.compile spec) fun field s => do
    s.checkAttributeFree field.field
    let s ← { s with computed := s.computed.insert field.field field }.reordered
    return (field, s)

/-- A computed field that keeps its name. -/
def renewedComputedField (name : String) (spec : ComputedField.Spec) : Result ComputedField := do
  let field ← ComputedField.compile spec
  checkSameName "field" name field.field
  return field

/-- Replaces a computed field, unless fields would read one another in a cycle. -/
def updateComputedField (r : Registry) (project name : String) (spec : ComputedField.Spec) :
    Outcome ComputedField :=
  r.submit project (renewedComputedField name spec) fun field s => do
    checkPresent .computedField name (s.computed.contains name)
    let s ← { s with computed := s.computed.insert name field }.reordered
    return (field, s)

/-- Drops a computed field that no formula and no segment reads. -/
def deleteComputedField (r : Registry) (project name : String) : Outcome Unit :=
  r.change project fun s => do
    checkPresent .computedField name (s.computed.contains name)
    let dependents := s.dependentsOf name
    if !dependents.isEmpty then throw (.inUse name dependents)
    let s ← { s with computed := s.computed.erase name }.reordered
    return ((), s)

/-- The computed field with a name. -/
def computedField (r : Registry) (project name : String) : Result ComputedField :=
  found .computedField name ((r.snapshot project).computed.get? name)

/-! ### Segments -/

/-- Adds a segment under the identifier of its stamp. It is not asked whether that identifier is in
use: a segment that has it already is replaced. -/
def createSegment (r : Registry) (project : String) (stamp : Stamp) (spec : Segment.Spec) :
    Outcome Segment :=
  r.submit project (Segment.compile stamp.id stamp.time spec) fun segment s => do
    s.checkSegmentFree segment.name none
    return (segment, { s with segments := s.segments.insert segment.id segment })

/-- Replaces a segment, which keeps its identifier and the time of its creation. -/
def updateSegment (r : Registry) (project : String) (stamp : Stamp) (spec : Segment.Spec) :
    Outcome Segment :=
  r.submit project (Segment.compile stamp.id stamp.time spec) fun segment s => do
    s.checkSegmentFree segment.name (some stamp.id)
    let held ← found .segment stamp.id.write (s.segments.get? stamp.id)
    let segment := { segment with createdAt := held.createdAt }
    return (segment, { s with segments := s.segments.insert segment.id segment })

/-- Drops a segment. -/
def deleteSegment (r : Registry) (project : String) (id : Uuid) : Outcome Unit :=
  r.change project fun s => do
    checkPresent .segment id.write (s.segments.contains id)
    return ((), { s with segments := s.segments.erase id })

/-- The segment with an identifier. -/
def segment (r : Registry) (project : String) (id : Uuid) : Result Segment :=
  found .segment id.write ((r.snapshot project).segments.get? id)

end Registry

end Cohort
