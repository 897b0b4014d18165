import Mathlib.Tactic.Lemma
import Cohort.Decimal.Binary
set_option relaxedAutoImplicit false
set_option autoImplicit false

/-!
# The order of finite floats

Finite floats are numbers, and each has its place among the numbers. Comparing two of them compares
their places, so the order is a linear one up to the two zeros, which have one place. What is not a
number compares with nothing, on either side.

## Main results

* `Cohort.Decimal.order_swap` — two floats compare the other way round from the other side.
* `Cohort.Decimal.below_iff`, `Cohort.Decimal.atMost_iff` — comparing finite floats compares their
  places.
-/

namespace Cohort.Decimal

variable {x y : Float}

/-- Two floats compare the other way round from the other side. -/
lemma order_swap (x y : Float) : order y x = (order x y).map Ordering.swap := by
  unfold order
  rw [Bool.or_comm]
  split
  · rfl
  · exact congrArg some Std.OrientedOrd.eq_swap

/-- A finite float is a number. -/
lemma isNaN_eq_false (hx : x.isFinite = true) : x.isNaN = false := by
  change x.toModel.unpack.isNaN = false
  change x.toModel.unpack.isFinite = true at hx
  cases hunpacked : x.toModel.unpack with
  | notANumber =>
    rw [hunpacked] at hx
    cases hx
  | infinity | zero | finite => rfl

/-- Finite numbers compare as their keys do. -/
lemma order_eq_some (hx : x.isFinite = true) (hy : y.isFinite = true) :
    order x y = some (compare (numericKey x) (numericKey y)) := by
  rw [order, isNaN_eq_false hx, isNaN_eq_false hy]
  rfl

/-- A finite float is below another one if its place is. -/
lemma below_iff (hx : x.isFinite = true) (hy : y.isFinite = true) :
    below x y = true ↔ numericKey x < numericKey y := by
  rw [below, order_eq_some hx hy, ← Std.compare_eq_lt]
  simp

/-- A finite float is at most another one if its place is. -/
lemma atMost_iff (hx : x.isFinite = true) (hy : y.isFinite = true) :
    atMost x y = true ↔ numericKey x ≤ numericKey y := by
  rw [atMost, order_eq_some hx hy, ← Std.isLE_compare]
  cases compare (numericKey x) (numericKey y) <;> simp

end Cohort.Decimal
