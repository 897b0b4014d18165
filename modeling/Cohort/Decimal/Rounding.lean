set_option autoImplicit false

/-!
# Rounding to whole numbers

Numbers are shown with a set number of places, and seconds as whole seconds. Both round a quotient
of naturals to the nearest whole number; they differ in where an exact half goes.

## Main definitions

* `Cohort.Decimal.Tie` — where a half goes.
* `Cohort.Decimal.roundDiv` — the nearest whole number to a quotient.
-/

namespace Cohort.Decimal

/-- Where an exact half goes. -/
inductive Tie where
  /-- To the even neighbour. -/
  | toEven
  /-- To the larger neighbour, which for a magnitude is the one away from zero. -/
  | up
deriving DecidableEq, Repr

/-- The whole number nearest to `num / den`. -/
def roundDiv (num den : Nat) (tie : Tie) : Nat :=
  let below := num / den
  match compare (2 * (num % den)) den with
  | .lt => below
  | .gt => below + 1
  | .eq =>
    match tie with
    | .toEven => below + below % 2
    | .up => below + 1

end Cohort.Decimal
