import Cohort.Constraint
set_option autoImplicit false

/-!
# Declared fields

Projects declare the properties of their events and the raw attributes of their profiles. The
declarations describe the data; nothing is refused because it is not declared.

## Main definitions

* `Cohort.Field` and `Cohort.Field.compile` — a declared field.
* `Cohort.EventSchema` and `Cohort.EventSchema.compile` — the declared properties of an event.
-/

namespace Cohort

/-- A name without the blanks around it; it must not be empty. -/
def readName (what name : String) : Result String :=
  let trimmed := Text.trim name
  if trimmed.isEmpty then .error (.validation (.emptyName what)) else .ok trimmed

/-- A declared field as it is submitted. -/
structure Field.Spec where
  /-- The name of the field. -/
  field : String
  /-- The name that people see. -/
  displayName : Option String
  /-- The name of the type. -/
  dataType : String
  /-- The name of an icon. -/
  icon : Option String
  /-- The group that the field is shown in. -/
  category : Option String
  /-- Values that are offered. -/
  suggestedValues : List Json
deriving DecidableEq

/-- A declared field. -/
structure Field where
  /-- The name of the field. -/
  field : String
  /-- The name that people see. -/
  displayName : String
  /-- The type of the values. -/
  dataType : DataType
  /-- The name of an icon. -/
  icon : Option String
  /-- The group that the field is shown in. -/
  category : Option String
  /-- Values that are offered. -/
  suggestedValues : List Json
deriving DecidableEq

/-- The field that a submitted one means. People see its name unless another is given. -/
def Field.compile (spec : Field.Spec) : Result Field := do
  let field ← readName "field" spec.field
  let dataType ← Constraint.readDataType spec.dataType
  return { field, dataType, displayName := spec.displayName.getD field, icon := spec.icon,
           category := spec.category, suggestedValues := spec.suggestedValues }

/-- The declared properties of an event as they are submitted. -/
structure EventSchema.Spec where
  /-- The name of the event. -/
  eventName : String
  /-- The name that people see. -/
  displayName : Option String
  /-- The properties. -/
  properties : List Field.Spec
deriving DecidableEq

/-- The declared properties of an event. -/
structure EventSchema where
  /-- The name of the event. -/
  eventName : String
  /-- The name that people see. -/
  displayName : String
  /-- The properties. -/
  properties : List Field
deriving DecidableEq

namespace EventSchema

/-- Properties that follow others: each has to be valid and new. -/
def compileProperties (event : String) (seen : List String) :
    List Field.Spec → Result (List Field)
  | [] => .ok []
  | spec :: specs => do
    let field ← Field.compile spec
    if field.field ∈ seen then throw (.conflict (.duplicateProperty field.field event))
    return field :: (← compileProperties event (field.field :: seen) specs)

/-- The schema that a submitted one means. -/
def compile (spec : Spec) : Result EventSchema := do
  let eventName ← readName "eventName" spec.eventName
  let properties ← compileProperties eventName [] spec.properties
  return { eventName, properties, displayName := spec.displayName.getD eventName }

/-- The property with a name. -/
def property? (schema : EventSchema) (name : String) : Option Field :=
  schema.properties.find? (·.field = name)

end EventSchema

end Cohort
