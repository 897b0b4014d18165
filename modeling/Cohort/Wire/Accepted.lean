import Cohort.Formula.Value
import Cohort.Report.Basic
import Cohort.Wire.Definition
set_option autoImplicit false

/-!
# Accepted definitions in JSON

The JSON forms of definitions after they were accepted show what was understood: operators and
operands after reading, names without blanks, formulas as trees. They are only written.

## Main definitions

* `toJson` of every definition that was accepted.
* `Cohort.Json.ofAnyFloat` — a float that need not be finite.
-/

namespace Cohort

/-- A float as a JSON value. One that is not finite is a word. -/
def Json.ofAnyFloat (x : Float) : Json :=
  if x.isNaN then .string "NaN"
  else if x.isFinite then .ofFloat x
  else if Decimal.isNegative x then .string "-Infinity" else .string "Infinity"

/-- Texts as a JSON value. -/
def Json.ofTexts (texts : List String) : Json :=
  .array (texts.map .string)

/-- An instant as a JSON value. -/
def Instant.toJson (t : Instant) : Json :=
  .string t.write

/-- The JSON form of a timeframe. -/
def Timeframe.toJson : Timeframe → Json
  | .relative value unit =>
    .ofMembers [("type", .string "relative"), ("value", .ofInt value), ("unit", .string unit.name)]
  | .absolute start stop =>
    .ofMembers [("type", .string "absolute"), ("from", start.toJson),
      ("to", .ofOption Instant.toJson stop)]
  | .allTime => .ofMembers [("type", .string "all_time")]

/-! ### Constraints -/

namespace Constraint

/-- The operands of a test of a number. -/
def NumberTest.operands : NumberTest → List Float
  | .is operands | .isNot operands => operands
  | .above x | .below x => [x]
  | .between low high => [low, high]

/-- The operands of a test of an instant. -/
def DateTest.operands : DateTest → List Instant
  | .before t | .after t => [t]
  | .between low high => [low, high]

/-- The JSON form of a test. -/
def Test.toJson : Test → Json
  | .isSet => .ofMembers [("kind", .string "is_set")]
  | .isNotSet => .ofMembers [("kind", .string "is_not_set")]
  | .text _ _ needles => .ofMembers [("kind", .string "text"), ("needles", .ofTexts needles)]
  | .number t =>
    .ofMembers [("kind", .string "number"), ("operands", .array (t.operands.map Json.ofAnyFloat))]
  | .boolean expected negated =>
    .ofMembers [("kind", .string "boolean"), ("expected", .bool expected),
      ("negate", .bool negated)]
  | .date t =>
    .ofMembers [("kind", .string "date"), ("operands", .array (t.operands.map Instant.toJson))]

/-- The JSON form of a constraint. -/
def toJson (c : Constraint) : Json :=
  .ofMembers [("field", .string c.field), ("dataType", .string c.dataType.name),
    ("operator", .string c.operator.name), ("test", c.test.toJson)]

end Constraint

/-! ### Aggregates and fields -/

/-- The JSON form of an aggregate. -/
def Aggregate.toJson (a : Aggregate) : Json :=
  .ofMembers [("operation", .string a.operation.name), ("timeframe", a.timeframe.toJson),
    ("eventName", .ofOption .string a.eventName),
    ("eventProperty", .ofOption .string a.eventProperty),
    ("aggregateBy", .string a.grouping.name), ("numeric", .bool a.operation.isNumeric),
    ("filters", .array (a.filters.map Constraint.toJson))]

/-- The JSON form of a declared field. -/
def Field.toJson (f : Field) : Json :=
  .ofMembers [("field", .string f.field), ("displayName", .string f.displayName),
    ("dataType", .string f.dataType.name), ("icon", .ofOption .string f.icon),
    ("category", .ofOption .string f.category), ("suggestedValues", .array f.suggestedValues)]

/-- The JSON form of the declaration of an event. -/
def EventSchema.toJson (s : EventSchema) : Json :=
  .ofMembers [("eventName", .string s.eventName), ("displayName", .string s.displayName),
    ("properties", .array (s.properties.map Field.toJson))]

/-! ### Formulas and computed fields -/

namespace Formula

/-- The sign of an operation of arithmetic. -/
def ArithmeticOp.sign : ArithmeticOp → String
  | .add => "+"
  | .subtract => "-"
  | .multiply => "*"
  | .divide => "/"

/-- The sign of a comparison. -/
def ComparisonOp.sign : ComparisonOp → String
  | .equal => "=="
  | .notEqual => "!="
  | .greater => ">"
  | .atLeast => ">="
  | .less => "<"
  | .atMost => "<="

namespace Expr

/-- The JSON form of an operation with two operands. -/
def binaryToJson (sign : String) (left right : Json) : Json :=
  .ofMembers [("binary", .string sign), ("lhs", left), ("rhs", right)]

/-- The JSON form of a call. -/
def callToJson (f : Function) (arguments : List Json) : Json :=
  .ofMembers [("call", .string f.name), ("args", .array arguments)]

mutual

/-- The JSON form of a formula. -/
def toJson : Expr → Json
  | .ident name => .ofMembers [("ident", .string name)]
  | .text s => .ofMembers [("str", .string s)]
  | .number x => .ofMembers [("number", .ofAnyFloat x)]
  | .duration x => .ofMembers [("duration", .ofAnyFloat x)]
  | .bool b => .ofMembers [("bool", .bool b)]
  | .null => .null
  | .cat first rest => callToJson .cat (toJson first :: toJsons rest)
  | .choose condition accepted rejected =>
    callToJson .choose [toJson condition, toJson accepted, toJson rejected]
  | .math body => callToJson .math [toJson body]
  | .date body => callToJson .date [toJson body]
  | .arithmetic op left right => binaryToJson op.sign (toJson left) (toJson right)
  | .comparison op left right => binaryToJson op.sign (toJson left) (toJson right)
  | .negate body => .ofMembers [("negate", toJson body)]

/-- The JSON forms of formulas. -/
def toJsons : List Expr → List Json
  | [] => []
  | e :: es => toJson e :: toJsons es

end

end Expr

end Formula

/-- What a token carries, in JSON. -/
def Formula.Token.members : Formula.Token → List (String × Json)
  | .number x => [("number", .ofAnyFloat x)]
  | .duration x => [("duration", .ofAnyFloat x)]
  | .text s => [("str", .string s)]
  | .ident s => [("ident", .string s)]
  | _ => []

/-- The JSON form of a lexeme. -/
def Formula.Lexeme.toJson (l : Lexeme) : Json :=
  let span := ("span", Json.array [.ofInt l.start, .ofInt l.stop])
  match l.token? with
  | none => .ofMembers [("invalid", .string (String.ofList l.text)), span]
  | some t => .ofMembers ([("display", .string t.describe), span] ++ t.members)

/-- The name of the kind of a value, and the value itself with all its digits. -/
def Formula.Value.exact : Formula.Value → String × Json
  | .null => ("null", .null)
  | .text s => ("text", .string s)
  | .number x => ("number", .ofAnyFloat x)
  | .bool b => ("bool", .bool b)
  | .date t => ("date", t.toJson)
  | .duration x => ("duration", .ofAnyFloat x)

/-- The name of a way to compute, and its JSON form. -/
def Computation.toJson : Computation → String × Json
  | .aggregate a => ("aggregate", .ofMembers [("aggregate", a.toJson)])
  | .formula source e =>
    ("formula", .ofMembers [("formula", .string source), ("ast", e.toJson)])

/-- The JSON form of a computed field. -/
def ComputedField.toJson (f : ComputedField) : Json :=
  .ofMembers [("field", .string f.field), ("displayName", .string f.displayName),
    ("dataType", .string f.dataType.name), ("schemaType", .string f.computation.toJson.1),
    ("references", .ofTexts f.references), ("config", f.computation.toJson.2)]

/-! ### Segments -/

/-- The JSON form of a threshold. -/
def Threshold.toJson (t : Threshold) : Json :=
  .ofMembers [("operation", .string t.operation.name), ("property", .ofOption .string t.property),
    ("comparison", .string t.comparison.name), ("value", .ofAnyFloat t.value),
    ("valueTo", .ofOption Json.ofAnyFloat t.valueTo)]

/-- The JSON form of a filter. -/
def Filter.toJson : Filter → Json
  | .event name constraints threshold timeframe =>
    .ofMembers [("event", .string name),
      ("constraints", .array (constraints.map Constraint.toJson)),
      ("aggregation", .ofOption Threshold.toJson threshold), ("timeframe", timeframe.toJson)]
  | .property name constraints =>
    .ofMembers [("property", .string name),
      ("constraints", .array (constraints.map Constraint.toJson))]

/-- The members of the JSON form of a segment, without its identifier and its times. -/
def Segment.members (g : Segment) : List (String × Json) :=
  [("name", .string g.name), ("description", .ofOption .string g.description),
    ("filters", .array (g.filters.map Filter.toJson)),
    ("referencedProperties", .ofTexts g.referencedProperties)]

/-! ### Reports -/

/-- The JSON form of a column: what it is called and how it is shown. -/
def Report.Column.toJson (c : Report.Column) : Json :=
  .array [.string c.key, .string c.label, .string c.format.name, .bool c.numeric]

/-- The JSON form of a report, with the aggregate that bounds the events that it reads. -/
def Report.Plan.toJson (p : Report.Plan) : Json :=
  .ofMembers [("columns", .array (p.columns.map Report.Column.toJson)),
    ("sort", .ofOption (fun (place, d) => .array [.ofInt place, .string d.name]) p.sort),
    ("page", .ofInt p.page), ("pageSize", .ofInt p.pageSize),
    ("segment", .ofOption .string (p.segment.map Segment.name)),
    ("scope", .ofOption Aggregate.toJson p.eventScope?)]

/-! ### Snapshots -/

/-- The segments of a snapshot by their names. -/
def Snapshot.segmentNames (s : Snapshot) : Index String Uuid :=
  .ofList (s.segments.values.map fun g => (g.name, g.id))

/-- The JSON form of a snapshot: of computed fields and segments only the names. -/
def Snapshot.toJson (s : Snapshot) : Json :=
  .ofMembers [("project", .string s.project), ("version", .ofInt s.version),
    ("eventSchemas", .array (s.eventSchemas.values.map EventSchema.toJson)),
    ("profileProperties", .array (s.profileProperties.values.map Field.toJson)),
    ("computed", .ofTexts s.computed.keys),
    ("segments", .array (s.segmentNames.entries.map fun (name, id) =>
      .array [.string name, .string id.write])),
    ("order", .ofTexts s.evaluationOrder)]

end Cohort
