import Cohort.Decimal.Rounding
set_option autoImplicit false

/-!
# The exact value of a float

A finite 64-bit float is a signed multiple of a power of two. Tests for wholeness, truncation and
rounding are exact on that form, so none of them goes through a rounded operation.

## Main definitions

* `Cohort.Decimal.Binary` — a sign, a significand and a power of two.
* `Cohort.Decimal.Binary.ofFloat` — the exact value of a finite float.
* `Cohort.Decimal.truncate`, `Cohort.Decimal.isWhole` — the whole part of a float.
* `Cohort.Decimal.totalKey`, `Cohort.Decimal.order` — the two orders on floats.
-/

namespace Cohort.Decimal

/-- The number `± significand · 2 ^ exponent`. -/
structure Binary where
  /-- Whether the sign is minus; zero has a sign too. -/
  negative : Bool
  /-- The magnitude in units of `2 ^ exponent`. -/
  significand : Nat
  /-- The power of two. -/
  exponent : Int
deriving DecidableEq, Repr

namespace Binary

/-- The exact value of a finite float, read off its sign, exponent and fraction bits. -/
def ofFloat (x : Float) : Binary :=
  let bits := x.toBits.toNat
  let fraction := bits % 0x10000000000000
  let biased := bits / 0x10000000000000 % 0x800
  { negative := decide (0x8000000000000000 ≤ bits)
    significand := if biased = 0 then fraction else fraction + 0x10000000000000
    exponent := ((max biased 1 : Nat) : Int) - 1075 }

/-- The numerator of the magnitude, over `denominator`. -/
def numerator (b : Binary) : Nat :=
  b.significand * Nat.pow 2 b.exponent.toNat

/-- The denominator of the magnitude: a power of two. -/
def denominator (b : Binary) : Nat :=
  Nat.pow 2 (-b.exponent).toNat

/-- Whether the number has no fraction. -/
def isWhole (b : Binary) : Bool :=
  b.numerator % b.denominator == 0

/-- A magnitude under the sign of the number. -/
def withSign (b : Binary) (magnitude : Nat) : Int :=
  if b.negative then -magnitude else magnitude

/-- The number without its fraction. -/
def truncate (b : Binary) : Int :=
  b.withSign (b.numerator / b.denominator)

/-- The magnitude in units of `10 ^ -places`, rounded to the nearest whole number of them. -/
def roundedMagnitude (b : Binary) (places : Nat) (tie : Tie) : Nat :=
  roundDiv (b.numerator * Nat.pow 10 places) b.denominator tie

end Binary

/-- Whether a finite float has no fraction. -/
def isWhole (x : Float) : Bool :=
  (Binary.ofFloat x).isWhole

/-- The whole part of a finite float. -/
def truncate (x : Float) : Int :=
  (Binary.ofFloat x).truncate

/-- The place of a float in the total order of floats, in which `-0.0` lies just below `0.0`:
the bits without the sign, counted down from `-1` under a minus sign. -/
def totalKey (x : Float) : Int :=
  let bits := x.toBits.toNat
  if 0x8000000000000000 ≤ bits then -((bits - 0x8000000000000000 : Nat) : Int) - 1 else bits

/-- The place of a float among the numbers: as `totalKey`, with the two zeros equal. -/
def numericKey (x : Float) : Int :=
  let bits := x.toBits.toNat
  if 0x8000000000000000 ≤ bits then -((bits - 0x8000000000000000 : Nat) : Int) else bits

/-- How two floats compare as numbers; what is not a number compares with nothing. -/
def order (x y : Float) : Option Ordering :=
  if x.isNaN || y.isNaN then none else some (compare (numericKey x) (numericKey y))

/-- Whether one float is at most another, as numbers. -/
def atMost (x y : Float) : Bool :=
  match order x y with
  | some .lt | some .eq => true
  | _ => false

/-- Whether one float is below another, as numbers. -/
def below (x y : Float) : Bool :=
  order x y == some .lt

/-- Whether two floats are the same number. -/
def same (x y : Float) : Bool :=
  order x y == some .eq

/-- Whether a float is one of the two zeros. -/
def isZero (x : Float) : Bool :=
  numericKey x == 0

/-- Whether a float is below zero; neither zero is. -/
def isNegative (x : Float) : Bool :=
  below x 0

end Cohort.Decimal
