import Cohort.Instant.Reading
import Cohort.Json.Printer
set_option autoImplicit false

/-!
# Coercion of JSON values

Traits and payloads are loosely typed: a number may arrive as text, an instant as text or as
milliseconds. Constraints, aggregates, formulas and reports all read values through the functions
of this module.

## Main definitions

* `Cohort.Json.isAbsent` — null, missing and empty text.
* `Cohort.Json.toNumber?`, `Cohort.Json.toBool?`, `Cohort.Json.toInstant?`, `Cohort.Json.toText` —
  a value read as another type.
* `Cohort.Json.distinctKey` — when two values count as one.
* `Cohort.Json.ofNumber` — a computed number as a value.
* `Cohort.Json.Fields.path?` — a member of nested objects.
-/

namespace Cohort.Json

/-- Whether a value is missing, null or an empty text, which all count as absent. -/
def isAbsent : Option Json → Bool
  | none | some .null => true
  | some (.string s) => s.isEmpty
  | some _ => false

/-- A text as a number: blanks around it are dropped, and the number has to be finite. -/
def numberOfText? (s : String) : Option Float :=
  Decimal.readFloat? (Text.trimBoth s.toList)

/-- A value as a number. -/
def toNumber? : Json → Option Float
  | .number n => some n.toFloat
  | .string s => numberOfText? s
  | _ => none

/-- A value as a truth value; as a text in any case with blanks around it. -/
def toBool? : Json → Option Bool
  | .bool b => some b
  | .string s =>
    let word := Text.keyword s
    if word = "true" then some true else if word = "false" then some false else none
  | _ => none

/-- A value as an instant: a text, or whole milliseconds since the start of 1970. -/
def toInstant? : Json → Option Instant
  | .string s => Instant.ofText? s
  | .number n => n.toInt64?.bind Instant.ofMillis?
  | _ => none

/-- The text of a number as people read it: whole numbers below a quadrillion have no point. -/
def textOfNumber (n : Number) : String :=
  match n with
  | .integer value _ => toString value
  | .float x _ =>
    if Decimal.isWhole x && (Decimal.truncate x).natAbs < 1000000000000000 then
      toString (Decimal.truncate x)
    else n.write

/-- A value as text; null is empty. -/
def toText : Json → String
  | .null => ""
  | .string s => s
  | .number n => textOfNumber n
  | v => v.compress

/-- Floats where they tell values apart: never with an exponent. -/
def keyLayout : Decimal.Layout :=
  ⟨.up, none, false⟩

/-- A text that tells values apart. Numbers are told apart as floats, texts by their characters, all
other values by their JSON text. -/
def distinctKey : Json → String
  | .string s => "s:" ++ s
  | .number n => "n:" ++ keyLayout.write n.toFloat
  | v => "j:" ++ v.compress

/-- A computed number as a value: a whole number if it is one below nine quadrillions, otherwise a
float, and null if it is not finite. -/
def ofNumber (x : Float) : Json :=
  if x.isFinite && Decimal.isWhole x && (Decimal.truncate x).natAbs < 9000000000000000 then
    ofInt (Decimal.truncate x)
  else ofFloat x

/-- The parts of a dotted path. A path without dots has one part, itself. -/
def splitPath : List Char → List (List Char)
  | [] => [[]]
  | c :: cs =>
    if c = '.' then [] :: splitPath cs
    else match splitPath cs with
      | part :: parts => (c :: part) :: parts
      | [] => [[c]]

/-- The value under names that lead through nested objects. -/
def descend? : Json → List String → Option Json
  | v, [] => some v
  | .object fields, name :: names =>
    match Fields.get? fields name with
    | some v => descend? v names
    | none => none
  | _, _ :: _ => none

/-- The member that a dotted path leads to. -/
def Fields.path? (fields : Fields) (path : String) : Option Json :=
  descend? (.object fields) ((splitPath path.toList).map String.ofList)

end Cohort.Json
