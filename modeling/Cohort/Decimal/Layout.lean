import Cohort.Decimal.Shortest
set_option autoImplicit false

/-!
# Writing floats

Which digits a float has is one question; how they are laid out is another. A `Layout` records the
answers to the second one, and the formats of this library differ only in it.

## Main definitions

* `Cohort.Decimal.Layout` — the decisions of a number format.
* `Cohort.Decimal.Layout.write` — the text of a float.
* `Cohort.Decimal.fixed` — the text of a magnitude with a set number of places.
-/

namespace Cohort.Decimal

/-- The decisions of a number format. -/
structure Layout where
  /-- Which of two equally near digit strings is written. -/
  tie : Tie
  /-- The least and greatest exponents that are written without an exponent part; without bounds
  there never is one. -/
  positional : Option (Int × Int)
  /-- Whether whole numbers end in `.0`. -/
  pointZero : Bool

/-- A float is not a number when it has no value: the words for such floats. -/
def wordOf? (x : Float) : Option String :=
  if x.isNaN then some "NaN"
  else if x.isFinite then none
  else if isNegative x then some "-inf" else some "inf"

namespace Layout

/-- Whether a number with this leading exponent is written without an exponent part. -/
def isPositional (layout : Layout) (exponent : Int) : Bool :=
  match layout.positional with
  | some (least, greatest) => least ≤ exponent && exponent ≤ greatest
  | none => true

/-- Digits with the point at its place. -/
def writePositional (layout : Layout) (digits : List Char) (exponent : Int) : List Char :=
  let whole := (exponent + 1).toNat
  if exponent < 0 then
    '0' :: '.' :: (List.replicate (-exponent - 1).toNat '0' ++ digits)
  else if digits.length ≤ whole then
    digits ++ List.replicate (whole - digits.length) '0' ++
      (if layout.pointZero then ['.', '0'] else [])
  else digits.take whole ++ '.' :: digits.drop whole

/-- One digit before the point, and the power of ten with its sign. -/
def writeScientific (digits : List Char) (exponent : Int) : List Char :=
  digits.take 1 ++ (if digits.length ≤ 1 then [] else '.' :: digits.drop 1) ++
    'e' :: (if exponent < 0 then '-' else '+') :: Nat.toDigits 10 exponent.natAbs

/-- The significant digits of a decimal: those up to the last one that is not zero. -/
def significant (d : Decimal) : List Char :=
  (d.digits.reverse.dropWhile (· == '0')).reverse

/-- The text of a magnitude. -/
def writeMagnitude (layout : Layout) (b : Binary) : List Char :=
  if b.significand = 0 then layout.writePositional ['0'] 0
  else
    let d := shortest b layout.tie
    if layout.isPositional d.leadingExponent then
      layout.writePositional (significant d) d.leadingExponent
    else writeScientific (significant d) d.leadingExponent

/-- The text of a float: the fewest digits that read back as it. -/
def write (layout : Layout) (x : Float) : String :=
  match wordOf? x with
  | some word => word
  | none =>
    let b := Binary.ofFloat x
    String.ofList ((if b.negative then ['-'] else []) ++ layout.writeMagnitude b)

end Layout

/-- Digits and a point before the last `places` of them, with at least one digit in front. -/
def placePoint (n places : Nat) : List Char :=
  let whole := Nat.toDigits 10 (n / Nat.pow 10 places)
  if places = 0 then whole
  else
    let fraction := Nat.toDigits 10 (n % Nat.pow 10 places)
    whole ++ '.' :: (List.replicate (places - fraction.length) '0' ++ fraction)

/-- The magnitude of a float with a set number of places. The exact value is rounded, a half to
the even neighbour. -/
def fixed (x : Float) (places : Nat) : List Char :=
  if x.isFinite then placePoint ((Binary.ofFloat x).roundedMagnitude places .toEven) places
  else if x.isNaN then "NaN".toList else "inf".toList

end Cohort.Decimal
