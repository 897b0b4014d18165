import Cohort.Formula.Expr
import Cohort.Instant.Printer
import Cohort.Json.Coercion
set_option autoImplicit false

/-!
# Values of formulas

A calculation that has no result gives null; it never fails.

## Main definitions

* `Cohort.Formula.Value` — what a formula evaluates to.
* `Cohort.Formula.calculate` — the operations of arithmetic.
* `Cohort.Formula.compareValues` — the comparisons.
-/

namespace Cohort.Formula

/-- What a formula evaluates to. -/
inductive Value where
  /-- No value. -/
  | null
  /-- A text. -/
  | text (s : String)
  /-- A number. -/
  | number (x : Float)
  /-- A truth value. -/
  | bool (b : Bool)
  /-- An instant. -/
  | date (t : Instant)
  /-- A length of time in seconds. -/
  | duration (seconds : Float)
deriving DecidableEq

namespace Value

/-- The value of an attribute; lists and objects count as their JSON text. -/
def ofJson : Json → Value
  | .null => .null
  | .bool b => .bool b
  | .number n => .number n.toFloat
  | .string s => .text s
  | v => .text v.compress

/-- A value as an attribute. Instants are cut to whole seconds. -/
def toJson : Value → Json
  | .null => .null
  | .text s => .string s
  | .number x | .duration x => Json.ofNumber x
  | .bool b => .bool b
  | .date t => .string t.writeSeconds

/-- Whether a value counts as true in a condition. -/
def isTruthy : Value → Bool
  | .null => false
  | .text s => !s.isEmpty
  | .number x | .duration x => !Decimal.isZero x
  | .bool b => b
  | .date _ => true

/-- A value inside a joined text. -/
def display : Value → String
  | .null => ""
  | .text s => s
  | .number x | .duration x => (Json.ofNumber x).toText
  | .bool b => if b then "true" else "false"
  | .date t => t.writeSeconds

end Value

/-- What the formula around an attribute calculates with. -/
inductive Mode where
  /-- Anything. -/
  | plain
  /-- Numbers. -/
  | math
  /-- Instants and lengths of time. -/
  | date
deriving DecidableEq, Repr

/-- A value as the mode needs it: text is read as a number or an instant. -/
def coerce : Mode → Value → Value
  | .math, .text s =>
    match Json.numberOfText? s with
    | some x => .number x
    | none => .null
  | .math, .bool _ => .null
  | .date, .text s =>
    match Instant.ofText? s with
    | some t => .date t
    | none => .null
  | _, v => v

/-- The whole number nearest to a finite float, a half away from zero. -/
def roundedFloat (x : Float) : Int :=
  let b := Decimal.Binary.ofFloat x
  b.withSign (b.roundedMagnitude 0 .up)

/-- An instant moved by seconds, which are rounded to milliseconds. -/
def shift (t : Instant) (seconds : Float) : Value :=
  let millis := seconds * 1000.0
  if millis.isFinite then
    match t.addMillis? (roundedFloat millis) with
    | some t => .date t
    | none => .null
  else .null

/-- The seconds from one instant to another, to the millisecond. -/
def secondsBetween (a b : Instant) : Float :=
  Float.ofInt (a.millisSince b) / 1000.0

/-- The operations of arithmetic on the kinds of values that have them. -/
def calculate : ArithmeticOp → Value → Value → Value
  | .add, .number a, .number b => .number (a + b)
  | .subtract, .number a, .number b => .number (a - b)
  | .multiply, .number a, .number b => .number (a * b)
  | .divide, .number a, .number b => if Decimal.isZero b then .null else .number (a / b)
  | .add, .date t, .duration s => shift t s
  | .add, .duration s, .date t => shift t s
  | .subtract, .date t, .duration s => shift t (-s)
  | .subtract, .date a, .date b => .duration (secondsBetween a b)
  | .add, .duration a, .duration b => .duration (a + b)
  | .subtract, .duration a, .duration b => .duration (a - b)
  | .multiply, .duration a, .number b => .duration (a * b)
  | .multiply, .number b, .duration a => .duration (a * b)
  | .divide, .duration a, .number b => if Decimal.isZero b then .null else .duration (a / b)
  | .divide, .duration a, .duration b => if Decimal.isZero b then .null else .number (a / b)
  | _, _, _ => .null

/-- How two values that are not null compare, if they do. Text compares with a number if it names
one. -/
def orderValues : Value → Value → Option Ordering
  | .number a, .number b => Decimal.order a b
  | .duration a, .duration b => Decimal.order a b
  | .date a, .date b => some (a.order b)
  | .bool a, .bool b => some (compare a b)
  | .text a, .text b => some (compare a b)
  | .number a, .text b => (Json.numberOfText? b).bind (Decimal.order a ·)
  | .text a, .number b => (Json.numberOfText? a).bind (Decimal.order · b)
  | _, _ => none

/-- Whether an operator holds for values that compare like this. -/
def ComparisonOp.accepts : ComparisonOp → Ordering → Bool
  | .equal, o => o == .eq
  | .notEqual, o => o != .eq
  | .greater, o => o == .gt
  | .atLeast, o => o != .lt
  | .less, o => o == .lt
  | .atMost, o => o != .gt

/-- A comparison of values that do not compare: they are different, and no more is known. -/
def ComparisonOp.ofIncomparable : ComparisonOp → Value
  | .equal => .bool false
  | .notEqual => .bool true
  | _ => .null

/-- A comparison. With null on a side it has no result. -/
def compareValues (op : ComparisonOp) (left right : Value) : Value :=
  if left = .null || right = .null then .null
  else
    match orderValues left right with
    | some o => .bool (op.accepts o)
    | none => op.ofIncomparable

/-- The opposite number or length of time. -/
def opposite : Value → Value
  | .number x => .number (-x)
  | .duration x => .duration (-x)
  | _ => .null

/-- The result of a calculation with numbers: a finite number or null. -/
def mathResult : Value → Value
  | .number x => if x.isFinite then .number x else .null
  | _ => .null

/-- The result of a calculation with instants: an instant, a finite length of time or null. -/
def dateResult : Value → Value
  | .date t => .date t
  | .duration x => if x.isFinite then .duration x else .null
  | _ => .null

end Cohort.Formula
