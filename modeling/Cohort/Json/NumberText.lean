import Cohort.Json.Basic
import Cohort.Decimal.Reading
set_option autoImplicit false

/-!
# Numbers in JSON text

A number without a point or an exponent is a whole number as long as it fits 64 bits. Any other
number becomes a float in two steps: its leading digits, as many as fit 64 bits, are rounded to a
float, and the float is scaled by a power of ten.

## Main definitions

* `Cohort.Json.NumberText` — the parts of a number as it is written.
* `Cohort.Json.NumberText.number?` — the number that it names.
-/

namespace Cohort.Json

/-- The parts of a JSON number as it is written. -/
structure NumberText where
  /-- Whether a minus sign stands in front. -/
  negative : Bool
  /-- The digits before the point. -/
  whole : List Char
  /-- The digits after the point, if there is one. -/
  fraction : Option (List Char)
  /-- The power of ten, if there is one. -/
  exponent : Option Int

namespace NumberText

/-- Takes digits into a significand until one would make it exceed 64 bits, and counts them. -/
def absorb (significand : Nat) : List Char → Nat × Nat
  | [] => (significand, 0)
  | c :: cs =>
    let next := 10 * significand + (c.toNat - '0'.toNat)
    if next < 0x10000000000000000 then
      let (final, taken) := absorb next cs
      (final, taken + 1)
    else (significand, 0)

/-- The power of ten as a float, for exponents up to 308. -/
def powerOfTen (exponent : Nat) : Float :=
  Float.ofScientific 1 false exponent

/-- A float scaled by a power of ten, in one operation as far as that power is a float. -/
def scale (x : Float) (exponent : Int) : Float :=
  if 308 < exponent then (if Decimal.isZero x then x else 1.0 / 0.0)
  else if 0 ≤ exponent then x * powerOfTen exponent.toNat
  else if -308 ≤ exponent then x / powerOfTen exponent.natAbs
  else if Decimal.isZero x then x
  else scale (x / powerOfTen 308) (exponent + 308)
termination_by exponent.natAbs

/-- The float that a number names: the digits that fit 64 bits, scaled by the power of ten that
the point, the digits left out of the whole part and the exponent give. -/
def toFloat (t : NumberText) : Float :=
  let (significand, taken) := absorb 0 t.whole
  let (significand, places) := absorb significand (t.fraction.getD [])
  let exponent := (t.whole.length - taken : Int) - places + t.exponent.getD 0
  let magnitude := scale (Float.ofNat significand) exponent
  if t.negative then -magnitude else magnitude

/-- The whole number that a text without point and exponent names. Minus zero is not one. -/
def toInt? (t : NumberText) : Option Int :=
  let n : Int := Decimal.ofDigits t.whole
  if t.fraction.isSome || t.exponent.isSome || (t.negative && n == 0) then none
  else some (if t.negative then -n else n)

/-- The number that a text names, unless it is too large for a float. -/
def number? (t : NumberText) : Option Number :=
  match t.toInt?.bind Number.ofInt? with
  | some n => some n
  | none => Number.ofFloat? t.toFloat

end NumberText

/-- The power of ten at the end of a number, if there is one, with what follows it. -/
def readPower? : List Char → Option (Option Int × List Char)
  | c :: cs =>
    if c == 'e' || c == 'E' then
      let (negative, cs) := Decimal.splitSign cs
      match Decimal.splitDigits cs with
      | ([], _) => none
      | (ds, rest) =>
        let n : Int := Decimal.ofDigits ds
        some (some (if negative then -n else n), rest)
    else some (none, c :: cs)
  | [] => some (none, [])

/-- The fraction of a number, if there is one, with what follows it. -/
def readFraction? : List Char → Option (Option (List Char) × List Char)
  | '.' :: cs =>
    match Decimal.splitDigits cs with
    | ([], _) => none
    | (ds, rest) => some (some ds, rest)
  | cs => some (none, cs)

/-- The whole part of a number: no zero stands in front of other digits. -/
def readWhole? (cs : List Char) : Option (List Char × List Char) :=
  match Decimal.splitDigits cs with
  | ([], _) => none
  | ('0' :: _ :: _, _) => none
  | (ds, rest) => some (ds, rest)

/-- The number at the front of a text, with what follows it. -/
def readNumber? (cs : List Char) : Option (NumberText × List Char) := do
  let (negative, cs) := match cs with
    | '-' :: cs => (true, cs)
    | cs => (false, cs)
  let (whole, cs) ← readWhole? cs
  let (fraction, cs) ← readFraction? cs
  let (exponent, cs) ← readPower? cs
  return (⟨negative, whole, fraction, exponent⟩, cs)

end Cohort.Json
