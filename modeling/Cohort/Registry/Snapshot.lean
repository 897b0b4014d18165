import Cohort.ComputedField
import Cohort.Dependency
import Cohort.Segment.Basic
set_option autoImplicit false

/-!
# Snapshots of a project

A snapshot holds the definitions of a project at one time, and the order in which its computed
fields can be evaluated.

## Main definitions

* `Cohort.Snapshot` — the definitions of a project.
* `Cohort.Snapshot.dependentsOf` — who reads an attribute.
* `Cohort.Snapshot.reordered` — the snapshot with its evaluation order brought up to date.
-/

namespace Cohort

/-- The definitions of a project at one time. -/
structure Snapshot where
  /-- The project. -/
  project : String
  /-- How many changes led to this snapshot. -/
  version : Nat
  /-- The declared events under their names. -/
  eventSchemas : Index String EventSchema
  /-- The declared attributes under their names. -/
  profileProperties : Index String Field
  /-- The computed fields under their names. -/
  computed : Index String ComputedField
  /-- The segments under their identifiers. -/
  segments : Index Uuid Segment
  /-- The names of the computed fields, each after those that its formula reads. -/
  evaluationOrder : List String

namespace Snapshot

/-- The snapshot of a project without definitions. -/
def empty (project : String) : Snapshot :=
  ⟨project, 0, .empty, .empty, .empty, .empty, []⟩

/-- The segment with a name. -/
def segmentNamed? (s : Snapshot) (name : String) : Option Segment :=
  s.segments.values.find? (·.name = name)

/-- The declared type of an attribute, computed or raw. -/
def dataTypeOf? (s : Snapshot) (name : String) : Option DataType :=
  ((s.computed.get? name).map ComputedField.dataType).or
    ((s.profileProperties.get? name).map Field.dataType)

/-- The computed fields whose formulas read an attribute. -/
def readersOf (s : Snapshot) (name : String) : List String :=
  (s.computed.values.filter fun f => name ∈ f.references).map ComputedField.field

/-- The segments whose filters read an attribute. -/
def segmentsReading (s : Snapshot) (name : String) : List Segment :=
  s.segments.values.filter fun g => name ∈ g.referencedProperties

/-- The computed fields and then the segments that read an attribute. -/
def dependentsOf (s : Snapshot) (name : String) : List String :=
  s.readersOf name ++ (s.segmentsReading name).map fun g => "segment " ++ quoted g.name

/-- Which computed field reads which. -/
def dependencyGraph (s : Snapshot) : Dependency.Graph :=
  .ofReferences (s.computed.values.map fun f => (f.field, f.references))

/-- The snapshot with its evaluation order brought up to date, unless fields read one another in a
cycle. -/
def reordered (s : Snapshot) : Result Snapshot :=
  match s.dependencyGraph.order with
  | .ok order => .ok { s with evaluationOrder := order }
  | .error names => .error (.validation (.cycle names))

/-- Refuses the name of an attribute that is taken by another, computed or raw. -/
def checkAttributeFree (s : Snapshot) (name : String) : Result Unit :=
  if s.computed.contains name then .error (.conflict (.nameTaken .computedField name))
  else if s.profileProperties.contains name then
    .error (.conflict (.nameTaken .profileProperty name))
  else .ok ()

/-- Refuses the name of a segment that is taken by another one. -/
def checkSegmentFree (s : Snapshot) (name : String) (except : Option Uuid) : Result Unit :=
  if s.segments.values.any fun g => g.name = name && some g.id ≠ except then
    .error (.conflict (.nameTaken .segment name))
  else .ok ()

end Snapshot

end Cohort
