import Cohort.Decimal.Basic
set_option autoImplicit false

/-!
# Reading numbers typed by people

A number in a text is an optional sign, digits with an optional point among or around them, and an
optional power of ten. The words for infinity and for what is not a number are refused, and so is a
number too large for a float.

## Main definitions

* `Cohort.Decimal.Literal` — the parts of a written number.
* `Cohort.Decimal.readFloat?` — the finite float that a text names.
-/

namespace Cohort.Decimal

/-- The parts of a written number. -/
structure Literal where
  /-- Whether a minus sign stands in front. -/
  negative : Bool
  /-- The digits before the point. -/
  whole : List Char
  /-- The digits after the point. -/
  fraction : List Char
  /-- The power of ten. -/
  exponent : Int
deriving DecidableEq

namespace Literal

/-- The magnitude of a written number. -/
def magnitude (l : Literal) : Decimal :=
  ⟨ofDigits (l.whole ++ l.fraction), l.exponent - l.fraction.length⟩

/-- The float nearest to a written number. -/
def toFloat (l : Literal) : Float :=
  if l.negative then -l.magnitude.toFloat else l.magnitude.toFloat

end Literal

/-- A sign, if there is one, and what follows it. -/
def splitSign : List Char → Bool × List Char
  | '-' :: cs => (true, cs)
  | '+' :: cs => (false, cs)
  | cs => (false, cs)

/-- The digits at the front and what follows them. -/
def splitDigits (cs : List Char) : List Char × List Char :=
  cs.span Char.isDigit

/-- The power of ten at the end of a number: nothing, or `e` with an optional sign and digits. -/
def readExponent? : List Char → Option Int
  | [] => some 0
  | c :: cs =>
    if c == 'e' || c == 'E' then
      let (negative, cs) := splitSign cs
      match splitDigits cs with
      | (d :: ds, []) =>
        let n : Int := ofDigits (d :: ds)
        some (if negative then -n else n)
      | _ => none
    else none

/-- The fraction after the digits before the point, with what follows it. -/
def splitFraction : List Char → List Char × List Char
  | '.' :: cs => splitDigits cs
  | cs => ([], cs)

/-- The parts of a number that takes up the whole text. -/
def readLiteral? (cs : List Char) : Option Literal :=
  let (negative, cs) := splitSign cs
  let (whole, cs) := splitDigits cs
  let (fraction, cs) := splitFraction cs
  if whole.isEmpty && fraction.isEmpty then none
  else (readExponent? cs).map (⟨negative, whole, fraction, ·⟩)

/-- The finite float that a text names. -/
def readFloat? (cs : List Char) : Option Float := do
  let x := (← readLiteral? cs).toFloat
  guard x.isFinite
  return x

end Cohort.Decimal
