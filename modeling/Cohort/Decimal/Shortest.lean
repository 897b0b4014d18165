import Cohort.Decimal.Basic
import Cohort.Decimal.Binary
set_option autoImplicit false

/-!
# The fewest digits that identify a float

Many decimals read back as a given float: those in the interval of numbers that round to it. The
ones with the fewest digits lie on the coarsest decimal grid that meets the interval, and if a grid
meets it, one of the two grid points around the float does. Of two such points the nearer is taken.

## Main definitions

* `Cohort.Decimal.Interval` — a float with the numbers that round to it.
* `Cohort.Decimal.shortest` — the decimal with the fewest digits that reads back.
-/

namespace Cohort.Decimal

/-- A positive float between the ends of the interval of numbers that round to it, all three in
units of a quarter of the float's last place. -/
structure Interval where
  /-- The lower end. -/
  low : Nat
  /-- The float itself. -/
  value : Nat
  /-- The upper end. -/
  high : Nat
  /-- Whether the ends round to the float too. -/
  closed : Bool
  /-- The power of two of the unit. -/
  unit : Int

namespace Interval

/-- The interval of a positive float. The ends lie half way to the neighbours, and the lower
neighbour of a power of two is nearer. Ties go to an even significand. -/
def ofBinary (b : Binary) : Interval :=
  let narrow := b.significand == 0x10000000000000 && decide (-1074 < b.exponent)
  { low := 4 * b.significand - (if narrow then 1 else 2)
    value := 4 * b.significand
    high := 4 * b.significand + 2
    closed := b.significand % 2 == 0
    unit := b.exponent - 2 }

/-- The factor of interval units in a comparison with multiples of `10 ^ place`. -/
def unitFactor (i : Interval) (place : Int) : Nat :=
  Nat.pow 2 i.unit.toNat * Nat.pow 10 (-place).toNat

/-- The factor of multiples of `10 ^ place` in a comparison with interval units. -/
def gridFactor (i : Interval) (place : Int) : Nat :=
  Nat.pow 2 (-i.unit).toNat * Nat.pow 10 place.toNat

/-- Whether `d · 10 ^ place` rounds to the float. -/
def contains (i : Interval) (place : Int) (d : Nat) : Bool :=
  let point := d * i.gridFactor place
  let low := i.low * i.unitFactor place
  let high := i.high * i.unitFactor place
  if i.closed then low ≤ point && point ≤ high else low < point && point < high

/-- The largest multiple of `10 ^ place` that is not above the float. -/
def floor (i : Interval) (place : Int) : Nat :=
  i.value * i.unitFactor place / i.gridFactor place

/-- Of the two grid points around the float the nearer one. -/
def nearest (i : Interval) (place : Int) (tie : Tie) : Nat :=
  roundDiv (i.value * i.unitFactor place) (i.gridFactor place) tie

/-- The grid point to write at a place, if the grid meets the interval there. A grid that is
coarser than the float itself is passed over. -/
def candidate? (i : Interval) (place : Int) (tie : Tie) : Option Nat :=
  let d := i.floor place
  if d = 0 then none
  else match i.contains place d, i.contains place (d + 1) with
    | true, true => some (i.nearest place tie)
    | true, false => some d
    | false, true => some (d + 1)
    | false, false => none

/-- The first of the grids at `place`, `place - 1`, … that meets the interval, among as many as
`steps`; the last of them gives its floor. -/
def search (i : Interval) (tie : Tie) : (steps : Nat) → (place : Int) → Decimal
  | 0, place => ⟨i.floor place, place⟩
  | steps + 1, place =>
    match i.candidate? place tie with
    | some d => ⟨d, place⟩
    | none => i.search tie steps (place - 1)

end Interval

/-- A place at or one above the first digit of a positive number. -/
def leadingPlace (b : Binary) : Int :=
  let whole := b.numerator / b.denominator
  if whole = 0 then -((Nat.toDigits 10 (b.denominator / b.numerator)).length - 1 : Int)
  else (Nat.toDigits 10 whole).length - 1

/-- The decimal with the fewest digits that reads back as the magnitude of a float other than
zero. Seventeen digits always suffice, so eighteen grids are enough. -/
def shortest (b : Binary) (tie : Tie) : Decimal :=
  (Interval.ofBinary b).search tie 18 (leadingPlace b)

end Cohort.Decimal
