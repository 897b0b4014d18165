import Cohort.Aggregate.Basic
import Cohort.Field
import Cohort.Uuid
set_option autoImplicit false

/-!
# Segments

A segment is a set of profiles, described by filters that all have to be passed: a profile did an
event, or so often, or an attribute passes constraints.

## Main definitions

* `Cohort.Segment.Spec`, `Cohort.Filter.Spec`, `Cohort.Threshold.Spec` — the parts of a segment as
  they are submitted.
* `Cohort.Segment`, `Cohort.Filter`, `Cohort.Threshold` — the same after they were accepted.
* `Cohort.Segment.referencedProperties` — the attributes that a segment reads.
-/

namespace Cohort

/-- How a metric is compared with a bound. -/
inductive Comparison where
  | atLeast
  | atMost
  | exactly
  | between
deriving DecidableEq, Repr

namespace Comparison

/-- The name of a comparison. -/
def name : Comparison → String
  | .atLeast => "at_least"
  | .atMost => "at_most"
  | .exactly => "exactly"
  | .between => "between"

/-- All comparisons. -/
def all : List Comparison := [.atLeast, .atMost, .exactly, .between]

/-- The comparison with a name. -/
def ofName? (word : String) : Option Comparison :=
  all.find? (·.name = word)

end Comparison

/-! ### Thresholds -/

/-- A bound on a metric of events as it is submitted. -/
structure Threshold.Spec where
  /-- The name of the metric. -/
  metric : String
  /-- The property that is measured. -/
  property : Option String
  /-- The name of the comparison. -/
  operator : String
  /-- The bound. -/
  value : Float
  /-- The upper bound. -/
  valueTo : Option Float
deriving DecidableEq

/-- A bound on a metric of events. -/
structure Threshold where
  /-- The metric. -/
  operation : Aggregate.Operation
  /-- The property that is measured. -/
  property : Option String
  /-- How the metric is compared. -/
  comparison : Comparison
  /-- The bound. -/
  value : Float
  /-- The upper bound. -/
  valueTo : Option Float
deriving DecidableEq

namespace Threshold

/-- The metric with a name. -/
def metric? : String → Option Aggregate.Operation
  | "count_events" | "count" => some .count
  | "count_unique" => some .countUnique
  | "sum" => some .sum
  | "mean" | "avg" | "average" => some .mean
  | "min" => some .min
  | "max" => some .max
  | _ => none

/-- The metric with a name, which may have blanks around it. -/
def readMetric (word : String) : Result Aggregate.Operation :=
  match metric? (Text.trim word) with
  | some o => .ok o
  | none => .error (.config (.unknownMetric (Text.trim word)))

/-- The comparison with a name, which may have blanks around it. -/
def readComparison (word : String) : Result Comparison :=
  match Comparison.ofName? (Text.trim word) with
  | some c => .ok c
  | none => .error (.validation (.unknownComparison (Text.trim word)))

/-- Refuses bounds of an interval that are missing or inverted. -/
def checkBounds (comparison : Comparison) (value : Float) (valueTo : Option Float) : Result Unit :=
  match comparison, valueTo with
  | .between, none => .error (.validation .missingUpperBound)
  | .between, some high =>
    if Decimal.below high value then .error (.validation .invertedThresholds) else .ok ()
  | _, _ => .ok ()

/-- The threshold that a submitted one means. -/
def compile (spec : Spec) : Result Threshold := do
  let operation ← readMetric spec.metric
  let property := trimmedName? spec.property
  if operation.needsProperty && property.isNone then
    throw (.config (.missingMetricProperty spec.metric))
  let comparison ← readComparison spec.operator
  checkBounds comparison spec.value spec.valueTo
  return ⟨operation, property, comparison, spec.value, spec.valueTo⟩

/-- Whether a metric reaches the threshold; a missing one does not. -/
def isMetBy (t : Threshold) (metric : Option Float) : Bool :=
  metric.any fun m =>
    match t.comparison with
    | .atLeast => Decimal.atMost t.value m
    | .atMost => Decimal.atMost m t.value
    | .exactly => Decimal.same m t.value
    | .between => Decimal.atMost t.value m && t.valueTo.any (Decimal.atMost m ·)

end Threshold

/-! ### Filters -/

/-- A filter as it is submitted. -/
structure Filter.Spec where
  /-- Whether the filter tests events or a property, by its name. -/
  filterType : String
  /-- The event that has to be done. -/
  event : Option String
  /-- The property that is tested. -/
  property : Option String
  /-- What the payload or the property has to pass. -/
  constraints : List Constraint.Spec
  /-- How often the event has to be done. -/
  threshold : Option Threshold.Spec
  /-- When the event has to be done. -/
  timeframe : Option Timeframe.Spec
deriving DecidableEq

/-- A condition on a profile. -/
inductive Filter where
  /-- An event was done in a timeframe with a payload that passes constraints; once, or so that a
  metric reaches a threshold. -/
  | event (name : String) (constraints : List Constraint) (threshold : Option Threshold)
      (timeframe : Timeframe)
  /-- An attribute passes constraints. -/
  | property (name : String) (constraints : List Constraint)
deriving DecidableEq

namespace Filter

/-- A filter on events. Without a timeframe all of the past counts. -/
def compileEvent (spec : Spec) (constraints : List Constraint) : Result Filter := do
  match trimmedName? spec.event with
  | none => throw (.validation .missingEventName)
  | some name =>
    let threshold ← spec.threshold.mapM Threshold.compile
    let timeframe ← spec.timeframe.mapM Timeframe.compile
    return .event name constraints threshold (timeframe.getD .allTime)

/-- A filter on an attribute. Its constraints name the attribute or no field at all. -/
def compileProperty (spec : Spec) (constraints : List Constraint) : Result Filter := do
  if spec.threshold.isSome then throw (.validation .aggregationOnProperty)
  match trimmedName? spec.property with
  | none => throw (.validation .missingPropertyName)
  | some name =>
    match constraints.find? fun c => !c.field.isEmpty && c.field ≠ name with
    | some c => throw (.validation (.fieldMismatch c.field name))
    | none => return .property name constraints

/-- The filter that a submitted one means. The constraints are checked before anything else. -/
def compile (spec : Spec) : Result Filter := do
  let constraints ← spec.constraints.mapM Constraint.compile
  match Text.trim spec.filterType with
  | "event" => compileEvent spec constraints
  | "property" => compileProperty spec constraints
  | other => .error (.validation (.unknownFilterType other))

end Filter

/-! ### Segments -/

/-- A segment as it is submitted. -/
structure Segment.Spec where
  /-- The name of the segment. -/
  name : String
  /-- What people should know about it. -/
  description : Option String
  /-- The conditions on its members. -/
  filters : List Filter.Spec
deriving DecidableEq

/-- A set of profiles. -/
structure Segment where
  /-- The identifier. -/
  id : Uuid
  /-- The name. -/
  name : String
  /-- What people should know about it. -/
  description : Option String
  /-- The conditions that every member meets. -/
  filters : List Filter
  /-- When the segment was created. -/
  createdAt : Instant
  /-- When the segment was changed last. -/
  updatedAt : Instant
deriving DecidableEq

namespace Segment

/-- The segment that a submitted one means, created now. -/
def compile (id : Uuid) (now : Instant) (spec : Spec) : Result Segment := do
  let name ← readName "name" spec.name
  let filters ← spec.filters.mapM Filter.compile
  return ⟨id, name, spec.description, filters, now, now⟩

/-- The attributes that the filters of a segment read, in order. -/
def referencedProperties (s : Segment) : List String :=
  s.filters.filterMap fun
    | .property name _ => some name
    | .event _ _ _ _ => none

end Segment

end Cohort
