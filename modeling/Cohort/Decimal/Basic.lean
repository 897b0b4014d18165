set_option autoImplicit false

/-!
# Decimal numbers

A decimal is a coefficient and a power of ten. Every number written in a text is one, and reading
it gives the float nearest to it.

## Main definitions

* `Cohort.Decimal` — a coefficient and a power of ten.
* `Cohort.Decimal.toFloat` — the nearest float.
-/

namespace Cohort

/-- The number `coefficient · 10 ^ exponent`. -/
structure Decimal where
  /-- The digits as one natural number. -/
  coefficient : Nat
  /-- The power of ten. -/
  exponent : Int
deriving DecidableEq, Repr

namespace Decimal

/-- The digits of the coefficient. -/
def digits (d : Decimal) : List Char :=
  Nat.toDigits 10 d.coefficient

/-- The power of ten of the first digit. -/
def leadingExponent (d : Decimal) : Int :=
  d.digits.length - 1 + d.exponent

/-- The float nearest to a decimal, ties to even; infinite when it is too large. Magnitudes far
outside the range of floats are settled by the leading exponent alone. -/
def toFloat (d : Decimal) : Float :=
  if d.coefficient = 0 || d.leadingExponent < -400 then 0.0
  else if 400 < d.leadingExponent then 1.0 / 0.0
  else Float.ofScientific d.coefficient (decide (d.exponent < 0)) d.exponent.natAbs

/-- The number that a list of decimal digits names. -/
def ofDigits (ds : List Char) : Nat :=
  ds.foldl (fun n c => 10 * n + (c.toNat - '0'.toNat)) 0

end Decimal

end Cohort
