import Cohort.Registry.Snapshot
import Cohort.Wire.Record
set_option autoImplicit false

/-!
# Definitions in JSON

The JSON forms of definitions as they are submitted. Whatever is written can be read back; what is
read may leave out members that have a default.

## Main definitions

* `ofDocument?` and `toJson` of every definition that can be submitted.
-/

namespace Cohort

open Json (Document)
open Wire (Record)

/-! ### Constraints -/

namespace Constraint.Spec

/-- The operands of a constraint: a list as it is, nothing for null, otherwise the one value. -/
def operands (d : Document) : Option (List Json) :=
  match d with
  | .array items => items.mapM Document.value?
  | .null => some []
  | d => d.value?.map ([·])

/-- The operands may also be called `value`. -/
def spelling (name : String) : String :=
  if name = "value" then "values" else name

/-- A constraint. -/
def ofDocument? (d : Document) : Option Spec := do
  let r ← Record.readSpelled? ["field", "dataType", "operator", "values"] spelling d
  return { field := ← r.orElse "field" "" Wire.text
           dataType := ← r.required "dataType" Wire.text
           operator := ← r.required "operator" Wire.text
           values := ← r.orElse "values" [] operands }

/-- The JSON form of a constraint. -/
def toJson (s : Spec) : Json :=
  .ofMembers [("field", .string s.field), ("dataType", .string s.dataType),
    ("operator", .string s.operator), ("values", .array s.values)]

end Constraint.Spec

/-! ### Timeframes -/

namespace Timeframe.Spec

/-- The words for the kinds of timeframes. -/
def words : List String := ["relative", "absolute", "all_time"]

/-- A timeframe. Its word may be given by its place where words are numbered. -/
def ofDocument? (numbered : Bool) (d : Document) : Option Spec := do
  let t ← Wire.tagged words numbered d
  match t.tag with
  | "relative" =>
    let r ← Record.read? ["value", "unit"] t.rest
    return .relative (← r.required "value" Wire.int64) (← r.required "unit" Wire.text)
  | "absolute" =>
    let r ← Record.read? ["from", "to"] t.rest
    return .absolute (← r.required "from" Wire.timestamp) (← r.optional "to" Wire.timestamp)
  | "all_time" => (Record.read? [] t.rest).map fun _ => .allTime
  | _ => none

/-- An instant as a JSON value. -/
def instant (t : Instant) : Json :=
  .string t.write

/-- The JSON form of a timeframe. -/
def toJson : Spec → Json
  | .relative value unit =>
    .ofMembers [("type", .string "relative"), ("value", .ofInt value), ("unit", .string unit)]
  | .absolute start stop =>
    .ofMembers [("type", .string "absolute"), ("from", instant start),
      ("to", .ofOption instant stop)]
  | .allTime => .ofMembers [("type", .string "all_time")]

end Timeframe.Spec

/-! ### Aggregates -/

namespace Aggregate.Spec

/-- An aggregate. The word of its timeframe may be given by its place where words are numbered. -/
def ofDocument? (numbered : Bool) (d : Document) : Option Spec := do
  let r ← Record.read?
    ["operation", "timeframe", "eventName", "eventProperty", "aggregateBy", "filters"] d
  return { operation := ← r.required "operation" Wire.text
           timeframe := ← r.required "timeframe" (Timeframe.Spec.ofDocument? numbered)
           eventName := ← r.optional "eventName" Wire.text
           eventProperty := ← r.optional "eventProperty" Wire.text
           aggregateBy := ← r.optional "aggregateBy" Wire.text
           filters := ← r.orElse "filters" [] (Wire.list Constraint.Spec.ofDocument?) }

/-- The JSON form of an aggregate. -/
def toJson (s : Spec) : Json :=
  .ofMembers [("operation", .string s.operation), ("timeframe", s.timeframe.toJson),
    ("eventName", .ofOption .string s.eventName),
    ("eventProperty", .ofOption .string s.eventProperty),
    ("aggregateBy", .ofOption .string s.aggregateBy),
    ("filters", .array (s.filters.map Constraint.Spec.toJson))]

end Aggregate.Spec

/-! ### Declared fields -/

namespace Field.Spec

/-- A declared field. -/
def ofDocument? (d : Document) : Option Spec := do
  let r ← Record.read? ["field", "displayName", "dataType", "icon", "category", "suggestedValues"] d
  return { field := ← r.required "field" Wire.text
           displayName := ← r.optional "displayName" Wire.text
           dataType := ← r.required "dataType" Wire.text
           icon := ← r.optional "icon" Wire.text
           category := ← r.optional "category" Wire.text
           suggestedValues := ← r.orElse "suggestedValues" [] (Wire.list Wire.json) }

/-- The JSON form of a declared field. -/
def toJson (s : Spec) : Json :=
  .ofMembers [("field", .string s.field), ("displayName", .ofOption .string s.displayName),
    ("dataType", .string s.dataType), ("icon", .ofOption .string s.icon),
    ("category", .ofOption .string s.category), ("suggestedValues", .array s.suggestedValues)]

end Field.Spec

namespace EventSchema.Spec

/-- The declaration of an event. -/
def ofDocument? (d : Document) : Option Spec := do
  let r ← Record.read? ["eventName", "displayName", "properties"] d
  return { eventName := ← r.required "eventName" Wire.text
           displayName := ← r.optional "displayName" Wire.text
           properties := ← r.orElse "properties" [] (Wire.list Field.Spec.ofDocument?) }

/-- The JSON form of the declaration of an event. -/
def toJson (s : Spec) : Json :=
  .ofMembers [("eventName", .string s.eventName), ("displayName", .ofOption .string s.displayName),
    ("properties", .array (s.properties.map Field.Spec.toJson))]

end EventSchema.Spec

/-! ### Computed fields -/

namespace ComputedField.Spec

/-- The text of a formula inside its record. -/
def formulaText (d : Document) : Option String := do
  let r ← Record.read? ["formula"] d
  r.required "formula" Wire.text

/-- A computed field. -/
def ofDocument? (d : Document) : Option Spec := do
  let r ← Record.read?
    ["field", "displayName", "schemaType", "dataType", "aggregateConfig", "formulaConfig"] d
  return { field := ← r.required "field" Wire.text
           displayName := ← r.optional "displayName" Wire.text
           schemaType := ← r.required "schemaType" Wire.text
           dataType := ← r.required "dataType" Wire.text
           aggregate := ← r.optional "aggregateConfig" (Aggregate.Spec.ofDocument? false)
           formula := ← r.optional "formulaConfig" formulaText }

/-- The record of a formula. -/
def formulaRecord (source : String) : Json :=
  .ofMembers [("formula", .string source)]

/-- The JSON form of a computed field. -/
def toJson (s : Spec) : Json :=
  .ofMembers [("field", .string s.field), ("displayName", .ofOption .string s.displayName),
    ("schemaType", .string s.schemaType), ("dataType", .string s.dataType),
    ("aggregateConfig", .ofOption Aggregate.Spec.toJson s.aggregate),
    ("formulaConfig", .ofOption formulaRecord s.formula)]

end ComputedField.Spec

/-! ### Segments -/

namespace Threshold.Spec

/-- A threshold. -/
def ofDocument? (d : Document) : Option Spec := do
  let r ← Record.read? ["metric", "property", "operator", "value", "valueTo"] d
  return { metric := ← r.required "metric" Wire.text
           property := ← r.optional "property" Wire.text
           operator := ← r.required "operator" Wire.text
           value := ← r.required "value" Wire.float
           valueTo := ← r.optional "valueTo" Wire.float }

/-- The JSON form of a threshold. -/
def toJson (s : Spec) : Json :=
  .ofMembers [("metric", .string s.metric), ("property", .ofOption .string s.property),
    ("operator", .string s.operator), ("value", .ofFloat s.value),
    ("valueTo", .ofOption .ofFloat s.valueTo)]

end Threshold.Spec

namespace Filter.Spec

/-- A filter. -/
def ofDocument? (d : Document) : Option Spec := do
  let r ← Record.read?
    ["filterType", "event", "property", "constraints", "aggregation", "timeframe"] d
  return { filterType := ← r.required "filterType" Wire.text
           event := ← r.optional "event" Wire.text
           property := ← r.optional "property" Wire.text
           constraints := ← r.orElse "constraints" [] (Wire.list Constraint.Spec.ofDocument?)
           threshold := ← r.optional "aggregation" Threshold.Spec.ofDocument?
           timeframe := ← r.optional "timeframe" (Timeframe.Spec.ofDocument? false) }

/-- The JSON form of a filter. -/
def toJson (s : Spec) : Json :=
  .ofMembers [("filterType", .string s.filterType), ("event", .ofOption .string s.event),
    ("property", .ofOption .string s.property),
    ("constraints", .array (s.constraints.map Constraint.Spec.toJson)),
    ("aggregation", .ofOption Threshold.Spec.toJson s.threshold),
    ("timeframe", .ofOption Timeframe.Spec.toJson s.timeframe)]

end Filter.Spec

namespace Segment.Spec

/-- A segment. -/
def ofDocument? (d : Document) : Option Spec := do
  let r ← Record.read? ["name", "description", "filters"] d
  return { name := ← r.required "name" Wire.text
           description := ← r.optional "description" Wire.text
           filters := ← r.orElse "filters" [] (Wire.list Filter.Spec.ofDocument?) }

/-- The JSON form of a segment. -/
def toJson (s : Spec) : Json :=
  .ofMembers [("name", .string s.name), ("description", .ofOption .string s.description),
    ("filters", .array (s.filters.map Filter.Spec.toJson))]

end Segment.Spec

end Cohort
