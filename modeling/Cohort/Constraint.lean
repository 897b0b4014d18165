import Cohort.Error
import Cohort.Json.Coercion
import Cohort.Text.Lowercase
import Cohort.Text.Search
set_option autoImplicit false

/-!
# Constraints

A constraint tests the value of a field. It is submitted with the names of its type and operator and
with untyped operands, and compiled once into a test that reads values as its type.

## Main definitions

* `Cohort.Constraint.Spec` — a constraint as it is submitted.
* `Cohort.Constraint` — a constraint that was accepted.
* `Cohort.Constraint.compile` — the checks of a submitted constraint.
* `Cohort.Constraint.accepts` — whether a value passes.
-/

namespace Cohort

namespace Constraint

/-- A constraint as it is submitted. -/
structure Spec where
  /-- The field that is tested. -/
  field : String
  /-- The name of the type of the field. -/
  dataType : String
  /-- The name of the operator. -/
  operator : String
  /-- The operands. -/
  values : List Json
deriving DecidableEq

/-- How two texts are compared. -/
inductive TextRelation where
  /-- They are the same. -/
  | is
  /-- One stands in the other. -/
  | contains
  /-- One begins the other. -/
  | startsWith
  /-- One ends the other. -/
  | endsWith
deriving DecidableEq, Repr

/-- Whether a text has the relation to a needle. -/
def TextRelation.holds (relation : TextRelation) (needle text : String) : Bool :=
  match relation with
  | .is => text = needle
  | .contains => Text.occursIn needle text
  | .startsWith => Text.startsWith needle text
  | .endsWith => Text.endsWith needle text

/-- A test of a number. -/
inductive NumberTest where
  /-- It is one of the operands. -/
  | is (operands : List Float)
  /-- It is none of the operands. -/
  | isNot (operands : List Float)
  /-- It is above the operand. -/
  | above (operand : Float)
  /-- It is below the operand. -/
  | below (operand : Float)
  /-- It is neither below the first operand nor above the second. -/
  | between (low high : Float)
deriving DecidableEq

/-- A test of an instant. -/
inductive DateTest where
  /-- It comes before the operand. -/
  | before (operand : Instant)
  /-- It comes after the operand. -/
  | after (operand : Instant)
  /-- It is neither before the first operand nor after the second. -/
  | between (low high : Instant)
deriving DecidableEq

/-- What a constraint tests. -/
inductive Test where
  /-- There is a value. -/
  | isSet
  /-- There is no value. -/
  | isNotSet
  /-- The text has a relation to one of the needles, or to none. Needles are in lower case. -/
  | text (relation : TextRelation) (negated : Bool) (needles : List String)
  /-- The number passes a test. -/
  | number (test : NumberTest)
  /-- The truth value is, or is not, the expected one. -/
  | boolean (expected negated : Bool)
  /-- The instant passes a test. -/
  | date (test : DateTest)
deriving DecidableEq

end Constraint

/-- A constraint that was accepted. -/
structure Constraint where
  /-- The field that is tested. -/
  field : String
  /-- The type of the field. -/
  dataType : DataType
  /-- The operator. -/
  operator : Operator
  /-- What is tested. -/
  test : Constraint.Test
deriving DecidableEq

namespace Constraint

/-! ### Compilation -/

/-- Refuses a number of operands that the operator does not take. -/
def checkArity (spec : Spec) (operator : Operator) (wanted : Arity) : Result Unit :=
  if wanted.accepts spec.values.length then .ok ()
  else .error (.validation (.wrongArity operator spec.field wanted spec.values.length))

/-- The refusal of an operator that the type does not accept. -/
def illegal {α : Type} (spec : Spec) (dataType : DataType) (operator : Operator) : Result α :=
  .error (.validation (.illegalOperator operator dataType spec.field))

/-- A test of a text. -/
def compileText (spec : Spec) (operator : Operator) : Result Test := do
  checkArity spec operator .atLeastOne
  let needles := spec.values.map fun v => Text.lowercase v.toText
  match operator with
  | .is => return .text .is false needles
  | .isNot => return .text .is true needles
  | .contains => return .text .contains false needles
  | .notContains => return .text .contains true needles
  | .startsWith => return .text .startsWith false needles
  | .endsWith => return .text .endsWith false needles
  | _ => illegal spec .string operator

/-- An operand as a number. -/
def numberOperand (spec : Spec) (v : Json) : Result Float :=
  match v.toNumber? with
  | some x => .ok x
  | none => .error (.validation (.notANumber v spec.field))

/-- An operand as an instant. -/
def dateOperand (spec : Spec) (v : Json) : Result Instant :=
  match v.toInstant? with
  | some t => .ok t
  | none => .error (.validation (.notADate v spec.field))

/-- An operand as a truth value. -/
def booleanOperand (spec : Spec) (v : Json) : Result Bool :=
  match v.toBool? with
  | some b => .ok b
  | none => .error (.validation (.notABoolean v spec.field))

/-- The only operand. -/
def oneOperand {α : Type} (spec : Spec) (operator : Operator) (read : Json → Result α) :
    Result α :=
  match spec.values with
  | [v] => read v
  | vs => .error (.validation (.wrongArity operator spec.field (.exactly 1) vs.length))

/-- The two operands, in order. -/
def twoOperands {α : Type} (spec : Spec) (operator : Operator) (read : Json → Result α)
    (inverted : α → α → Bool) : Result (α × α) :=
  match spec.values with
  | [v, w] => do
    let low ← read v
    let high ← read w
    if inverted low high then .error (.validation (.invertedBounds spec.field))
    else return (low, high)
  | vs => .error (.validation (.wrongArity operator spec.field (.exactly 2) vs.length))

/-- A test of a number. -/
def compileNumber (spec : Spec) (dataType : DataType) (operator : Operator) : Result Test := do
  match operator with
  | .is =>
    checkArity spec operator .atLeastOne
    return .number (.is (← spec.values.mapM (numberOperand spec)))
  | .isNot =>
    checkArity spec operator .atLeastOne
    return .number (.isNot (← spec.values.mapM (numberOperand spec)))
  | .greaterThan => return .number (.above (← oneOperand spec operator (numberOperand spec)))
  | .lessThan => return .number (.below (← oneOperand spec operator (numberOperand spec)))
  | .between =>
    let (low, high) ←
      twoOperands spec operator (numberOperand spec) fun low high => Decimal.below high low
    return .number (.between low high)
  | _ => illegal spec dataType operator

/-- A test of a truth value. -/
def compileBoolean (spec : Spec) (operator : Operator) : Result Test := do
  let expected ← oneOperand spec operator (booleanOperand spec)
  return .boolean expected (operator = .isNot)

/-- A test of an instant. -/
def compileDate (spec : Spec) (operator : Operator) : Result Test := do
  match operator with
  | .before => return .date (.before (← oneOperand spec operator (dateOperand spec)))
  | .after => return .date (.after (← oneOperand spec operator (dateOperand spec)))
  | .between =>
    let (low, high) ←
      twoOperands spec operator (dateOperand spec) fun low high => high.before low
    return .date (.between low high)
  | _ => illegal spec .date operator

/-- The test of an operator that the type accepts. -/
def compileTest (spec : Spec) (dataType : DataType) (operator : Operator) : Result Test :=
  match operator with
  | .isSet => .ok .isSet
  | .isNotSet => .ok .isNotSet
  | operator =>
    match dataType with
    | .string => compileText spec operator
    | .number | .duration => compileNumber spec dataType operator
    | .boolean => compileBoolean spec operator
    | .date => compileDate spec operator

/-- The type with a name. -/
def readDataType (word : String) : Result DataType :=
  match DataType.ofName? word with
  | some t => .ok t
  | none => .error (.validation (.unknownDataType (Text.keyword word)))

/-- The operator with a name. -/
def readOperator (word : String) : Result Operator :=
  match Operator.ofName? word with
  | some o => .ok o
  | none => .error (.validation (.unknownOperator word))

/-- The constraint that a submitted one means. The type is checked first, then the operator, whether
the type accepts it, the number of operands, the operands and their order. -/
def compile (spec : Spec) : Result Constraint := do
  let dataType ← readDataType spec.dataType
  let operator ← readOperator spec.operator
  if operator ∈ Operator.legal dataType then
    return ⟨spec.field, dataType, operator, ← compileTest spec dataType operator⟩
  else illegal spec dataType operator

/-! ### Evaluation -/

/-- Whether a number passes a test. -/
def NumberTest.accepts (test : NumberTest) (x : Float) : Bool :=
  match test with
  | .is operands => operands.any fun v => Decimal.same v x
  | .isNot operands => operands.all fun v => !Decimal.same v x
  | .above operand => Decimal.below operand x
  | .below operand => Decimal.below x operand
  | .between low high => Decimal.atMost low x && Decimal.atMost x high

/-- A number that is compared with all operands is none of them if and only if it is not found to be
one of them. -/
theorem NumberTest.accepts_isNot (operands : List Float) (x : Float) :
    (isNot operands).accepts x = !(is operands).accepts x := by
  simp only [accepts, List.not_any_eq_all_not]

/-- Whether an instant passes a test. -/
def DateTest.accepts (test : DateTest) (t : Instant) : Bool :=
  match test with
  | .before operand => t.before operand
  | .after operand => operand.before t
  | .between low high => !t.before low && !high.before t

namespace Test

/-- Whether a test is passed by what is not there, or not of the type: only negated ones are. -/
def isNegated : Test → Bool
  | .text _ negated _ => negated
  | .number (.isNot _) => true
  | .boolean _ negated => negated
  | _ => false

/-- Whether a value that is there passes a test. -/
def acceptsPresent (test : Test) (v : Json) : Bool :=
  match test with
  | .isSet => true
  | .isNotSet => false
  | .text relation negated needles =>
    needles.any (relation.holds · (Text.lowercase v.toText)) != negated
  | .number numberTest =>
    match v.toNumber? with
    | some x => numberTest.accepts x
    | none => test.isNegated
  | .boolean expected negated =>
    match v.toBool? with
    | some b => (b == expected) != negated
    | none => negated
  | .date dateTest =>
    match v.toInstant? with
    | some t => dateTest.accepts t
    | none => false

/-- Whether a value that is not there passes a test. -/
def acceptsAbsent : Test → Bool
  | .isSet => false
  | .isNotSet => true
  | test => test.isNegated

end Test

/-- Whether a value, if there is one, passes the constraint. -/
def accepts (c : Constraint) (candidate : Option Json) : Bool :=
  match candidate with
  | some v => if Json.isAbsent (some v) then c.test.acceptsAbsent else c.test.acceptsPresent v
  | none => c.test.acceptsAbsent

/-- Whether all constraints are passed by the values that a look-up gives for their fields. -/
def allAccept (constraints : List Constraint) (lookup : String → Option Json) : Bool :=
  constraints.all fun c => c.accepts (lookup c.field)

end Constraint

end Cohort
