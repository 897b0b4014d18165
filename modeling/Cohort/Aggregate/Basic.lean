import Cohort.Constraint
import Cohort.Timeframe
set_option autoImplicit false

/-!
# Aggregates

An aggregate reduces the events of a profile to one value: it names an operation, a timeframe, and
optionally an event, a property and constraints on the payload.

## Main definitions

* `Cohort.Aggregate.Operation` — how values are reduced.
* `Cohort.Aggregate.Spec` — an aggregate as it is submitted.
* `Cohort.Aggregate` — an aggregate that was accepted.
* `Cohort.Aggregate.compile` — the checks of a submitted aggregate.
-/

namespace Cohort

namespace Aggregate

/-- How values are reduced. -/
inductive Operation where
  | count
  | sum
  | countUnique
  | mean
  | min
  | max
  | firstTouch
  | lastTouch
  | top
deriving DecidableEq, Repr

namespace Operation

/-- The name of an operation. -/
def name : Operation → String
  | .count => "count"
  | .sum => "sum"
  | .countUnique => "count_unique"
  | .mean => "mean"
  | .min => "min"
  | .max => "max"
  | .firstTouch => "first_touch"
  | .lastTouch => "last_touch"
  | .top => "top"

/-- All operations. -/
def all : List Operation :=
  [.count, .sum, .countUnique, .mean, .min, .max, .firstTouch, .lastTouch, .top]

/-- The operation with a name. The mean has two more names. -/
def ofName? (word : String) : Option Operation :=
  if word = "avg" || word = "average" then some .mean else all.find? (·.name = word)

/-- Whether the operation needs a property to reduce. -/
def needsProperty : Operation → Bool
  | .count => false
  | _ => true

/-- Whether the result is always a number, if there is one. -/
def isNumeric : Operation → Bool
  | .count | .sum | .countUnique | .mean | .min | .max => true
  | .firstTouch | .lastTouch | .top => false

end Operation

/-- Whether equal values count once. -/
inductive Grouping where
  /-- Every value counts. -/
  | total
  /-- Equal values count once. -/
  | unique
deriving DecidableEq, Repr

/-- The name of a grouping. -/
def Grouping.name : Grouping → String
  | .total => "total"
  | .unique => "unique"

/-- An aggregate as it is submitted. -/
structure Spec where
  /-- The name of the operation. -/
  operation : String
  /-- The part of the past that counts. -/
  timeframe : Timeframe.Spec
  /-- The name of the events that count. -/
  eventName : Option String
  /-- The property that is reduced. -/
  eventProperty : Option String
  /-- Whether equal values count once, by its name. -/
  aggregateBy : Option String
  /-- What the payloads have to pass. -/
  filters : List Constraint.Spec
deriving DecidableEq

end Aggregate

/-- An aggregate that was accepted. -/
structure Aggregate where
  /-- How values are reduced. -/
  operation : Aggregate.Operation
  /-- The part of the past that counts. -/
  timeframe : Timeframe
  /-- The name of the events that count; without one all do. -/
  eventName : Option String
  /-- The property that is reduced. -/
  eventProperty : Option String
  /-- Whether equal values count once. -/
  grouping : Aggregate.Grouping
  /-- What the payloads have to pass. -/
  filters : List Constraint
deriving DecidableEq

/-- A name without the blanks around it, unless nothing is left. -/
def trimmedName? (name : Option String) : Option String :=
  (name.map Text.trim).filter fun s => !s.isEmpty

namespace Aggregate

/-- The operation with a name, which may have blanks around it. -/
def readOperation (word : String) : Result Operation :=
  match Operation.ofName? (Text.trim word) with
  | some o => .ok o
  | none => .error (.config (.unknownOperation (Text.trim word)))

/-- The grouping with a name; without one every value counts. -/
def readGrouping (word : Option String) : Result Grouping :=
  match word.map Text.trim with
  | none | some "" | some "total" => .ok .total
  | some "unique" => .ok .unique
  | some other => .error (.config (.unknownAggregateBy other))

/-- The aggregate that a submitted one means. The operation is checked first, then the property, the
grouping, the constraints and the timeframe. -/
def compile (spec : Spec) : Result Aggregate := do
  let operation ← readOperation spec.operation
  let eventProperty := trimmedName? spec.eventProperty
  if operation.needsProperty && eventProperty.isNone then
    throw (.config (.missingEventProperty spec.operation))
  let grouping ← readGrouping spec.aggregateBy
  let filters ← spec.filters.mapM Constraint.compile
  let timeframe ← Timeframe.compile spec.timeframe
  return ⟨operation, timeframe, trimmedName? spec.eventName, eventProperty, grouping, filters⟩

end Aggregate

end Cohort
