import Cohort.Formula.Parser
import Cohort.Json.Printer
import Cohort.Instant.Printer
import Cohort.Operator
set_option autoImplicit false

/-!
# Errors

Definitions are checked when they are submitted, and every refusal has a cause. Evaluation itself
never fails; requests fail on names that are not there and on stores that cannot be read.

## Main definitions

* `Cohort.Error` — why a request is refused.
* `Cohort.Error.message` — its wording.
* `Cohort.Result` — a value or an error.
-/

namespace Cohort

/-- How many operands an operator takes. -/
inductive Arity where
  /-- That many. -/
  | exactly (count : Nat)
  /-- One or more. -/
  | atLeastOne
deriving DecidableEq, Repr

/-- Whether a number of operands fits. -/
def Arity.accepts (a : Arity) (count : Nat) : Bool :=
  match a with
  | .exactly n => count = n
  | .atLeastOne => 1 ≤ count

/-- An arity in a message. -/
def Arity.describe : Arity → String
  | .exactly count => "exactly " ++ toString count
  | .atLeastOne => "at least one"

/-- What is stored under a name. -/
inductive Kind where
  | eventSchema
  | profileProperty
  | computedField
  | segment
  | profile
deriving DecidableEq, Repr

/-- A kind in a message. -/
def Kind.describe : Kind → String
  | .eventSchema => "event schema"
  | .profileProperty => "profile property"
  | .computedField => "computed field"
  | .segment => "segment"
  | .profile => "profile"

/-- A text between single quotes. -/
def quoted (s : String) : String :=
  "'" ++ s ++ "'"

/-- Why a definition is not valid. -/
inductive ValidationFault where
  | unknownDataType (word : String)
  | unknownOperator (word : String)
  | illegalOperator (operator : Operator) (dataType : DataType) (field : String)
  | wrongArity (operator : Operator) (field : String) (wanted : Arity) (count : Nat)
  | notANumber (value : Json) (field : String)
  | notABoolean (value : Json) (field : String)
  | notADate (value : Json) (field : String)
  | invertedBounds (field : String)
  | emptyName (what : String)
  | immutableName (what held requested : String)
  | formulaOnAggregate (field : String)
  | aggregateOnFormula (field : String)
  | missingFormula (field : String)
  | selfReference (field : String)
  | unknownSchemaType (word : String)
  | unknownComparison (word : String)
  | missingUpperBound
  | invertedThresholds
  | missingEventName
  | aggregationOnProperty
  | missingPropertyName
  | fieldMismatch (field property : String)
  | unknownFilterType (word : String)
  | cycle (names : List String)
  | noColumns
  | emptyColumnKey
  | duplicateColumn (key : String)
  | unknownSortColumn (key : String)
deriving DecidableEq

namespace ValidationFault

/-- The wording of a cause. -/
def message : ValidationFault → String
  | unknownDataType word => "unknown data type " ++ quoted word
  | unknownOperator word => "unknown operator " ++ quoted word
  | illegalOperator operator dataType field =>
    "operator " ++ quoted operator.name ++ " is not valid for " ++ dataType.name ++ " field " ++
      quoted field
  | wrongArity operator field wanted count =>
    "operator " ++ quoted operator.name ++ " on field " ++ quoted field ++ " requires " ++
      wanted.describe ++ " value(s), got " ++ toString count
  | notANumber value field =>
    "value " ++ value.compress ++ " for field " ++ quoted field ++ " is not a number"
  | notABoolean value field =>
    "value " ++ value.compress ++ " for field " ++ quoted field ++ " is not a boolean"
  | notADate value field =>
    "value " ++ value.compress ++ " for field " ++ quoted field ++ " is not a date"
  | invertedBounds field => "between bounds for " ++ quoted field ++ " are inverted"
  | emptyName what => what ++ " must not be empty"
  | immutableName what held requested =>
    what ++ " is immutable (" ++ quoted held ++ " cannot become " ++ quoted requested ++ ")"
  | formulaOnAggregate field =>
    "aggregate field " ++ quoted field ++ " must not carry a formulaConfig"
  | aggregateOnFormula field =>
    "formula field " ++ quoted field ++ " must not carry an aggregateConfig"
  | missingFormula field => "formula field " ++ quoted field ++ " is missing formulaConfig"
  | selfReference field => "formula field " ++ quoted field ++ " references itself"
  | unknownSchemaType word => "unknown schemaType " ++ quoted word
  | unknownComparison word => "unknown aggregation operator " ++ quoted word
  | missingUpperBound => "aggregation operator 'between' requires valueTo"
  | invertedThresholds => "aggregation bounds are inverted (valueTo < value)"
  | missingEventName => "event filter requires an event name"
  | aggregationOnProperty => "aggregation is only allowed on event filters"
  | missingPropertyName => "property filter requires a property name"
  | fieldMismatch field property =>
    "constraint field " ++ quoted field ++ " does not match property filter " ++ quoted property
  | unknownFilterType word => "unknown filterType " ++ quoted word
  | cycle names => "formula dependency cycle: " ++ " -> ".intercalate names
  | noColumns => "report needs at least one column"
  | emptyColumnKey => "report column key must not be empty"
  | duplicateColumn key => "duplicate report column " ++ quoted key
  | unknownSortColumn key => "unknown sort column " ++ quoted key

end ValidationFault

/-- Why a definition is not configured as it should be. -/
inductive ConfigFault where
  | unknownTimeUnit (word : String)
  | timeframeOutOfRange (value : Int)
  | timeframeInverted (stop start : Instant)
  | unknownOperation (word : String)
  | missingEventProperty (operation : String)
  | unknownAggregateBy (word : String)
  | missingAggregate (field : String)
  | unknownMetric (word : String)
  | missingMetricProperty (metric : String)
deriving DecidableEq

namespace ConfigFault

/-- The wording of a cause. -/
def message : ConfigFault → String
  | unknownTimeUnit word => "unknown timeframe unit " ++ quoted word
  | timeframeOutOfRange value => "timeframe value " ++ toString value ++ " must be non-negative"
  | timeframeInverted stop start =>
    "timeframe ends (" ++ stop.describe ++ ") before it starts (" ++ start.describe ++ ")"
  | unknownOperation word => "unknown aggregation operation " ++ quoted word
  | missingEventProperty operation =>
    "aggregation " ++ quoted operation ++ " requires an eventProperty"
  | unknownAggregateBy word => "unknown aggregateBy " ++ quoted word
  | missingAggregate field => "aggregate field " ++ quoted field ++ " is missing aggregateConfig"
  | unknownMetric word => "unknown segment aggregation metric " ++ quoted word
  | missingMetricProperty metric => "segment metric " ++ quoted metric ++ " requires a property"

end ConfigFault

/-- Why a definition cannot stand beside the others. -/
inductive ConflictFault where
  | duplicateProperty (field event : String)
  | nameTaken (kind : Kind) (name : String)
deriving DecidableEq

namespace ConflictFault

/-- The wording of a cause. -/
def message : ConflictFault → String
  | duplicateProperty field event =>
    "property " ++ quoted field ++ " declared twice on event " ++ quoted event
  | nameTaken kind name => kind.describe ++ " " ++ quoted name ++ " already exists"

end ConflictFault

/-- Why a request is refused. -/
inductive Error where
  /-- A definition is not valid. -/
  | validation (fault : ValidationFault)
  /-- A definition is not configured as it should be. -/
  | config (fault : ConfigFault)
  /-- A formula is not one. -/
  | parse (error : Formula.ParseError)
  /-- A definition cannot stand beside the others. -/
  | conflict (fault : ConflictFault)
  /-- There is nothing under a name. -/
  | notFound (kind : Kind) (name : String)
  /-- Something else reads the field that should be deleted. -/
  | inUse (field : String) (dependents : List String)
  /-- A store cannot be read. -/
  | storage (reason : String)
  /-- The request was cancelled. -/
  | cancelled
deriving DecidableEq

namespace Error

/-- The wording of an error. -/
def message : Error → String
  | validation fault => "Validation error: " ++ fault.message
  | config fault => "Configuration error: " ++ fault.message
  | parse error =>
    "Formula parse error at position " ++ toString error.position ++ ": " ++ error.fault.message
  | conflict fault => "Conflict: " ++ fault.message
  | notFound kind name => "Not found: " ++ kind.describe ++ " " ++ quoted name
  | inUse field dependents =>
    "Cannot delete " ++ quoted field ++ ": referenced by " ++ ", ".intercalate dependents
  | storage reason => "Storage error: " ++ reason
  | cancelled => "Operation cancelled"

/-- Whether an error can only arise when a definition is submitted, never in an evaluation. -/
def isDefinitionError : Error → Bool
  | validation _ | config _ | parse _ => true
  | _ => false

end Error

/-- A value or an error. -/
abbrev Result (α : Type) := Except Error α

/-- A formula read as part of a definition. -/
def Formula.compile (source : String) : Result Formula.Expr :=
  (Formula.parse source).mapError .parse

end Cohort
