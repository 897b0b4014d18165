import Cohort.Formula.Value
set_option autoImplicit false

/-!
# Evaluation of formulas

Attributes are asked for from left to right, and only those of the chosen branch of a choice. How
they are looked up is up to the caller, who may keep what was found before.

## Main definitions

* `Cohort.Formula.Expr.evaluateIn` — the value of a formula inside a calculation.
* `Cohort.Formula.Expr.evaluate` — the value of a whole formula.
-/

namespace Cohort.Formula.Expr

mutual

/-- The value of a formula inside a calculation of a mode. -/
def evaluateIn {m : Type → Type} [Monad m] (scope : String → m Json) (mode : Mode) :
    Expr → m Value
  | .ident name => do return coerce mode (.ofJson (← scope name))
  | .text s => return coerce mode (.text s)
  | .number x => return .number x
  | .duration x => return .duration x
  | .bool b => return .bool b
  | .null => return .null
  | .cat first rest => do
    let head ← evaluateIn scope .plain first
    let tail ← joinIn scope rest
    return .text (head.display ++ tail)
  | .choose condition accepted rejected => do
    let held ← evaluateIn scope .plain condition
    if held.isTruthy then evaluateIn scope mode accepted else evaluateIn scope mode rejected
  | .math body => do return mathResult (← evaluateIn scope .math body)
  | .date body => do return dateResult (← evaluateIn scope .date body)
  | .arithmetic op left right => do
    let l ← evaluateIn scope mode left
    let r ← evaluateIn scope mode right
    return calculate op l r
  | .comparison op left right => do
    let l ← evaluateIn scope mode left
    let r ← evaluateIn scope mode right
    return compareValues op l r
  | .negate body => do return opposite (← evaluateIn scope mode body)

/-- The texts of formulas, joined. -/
def joinIn {m : Type → Type} [Monad m] (scope : String → m Json) : List Expr → m String
  | [] => return ""
  | e :: es => do
    let head ← evaluateIn scope .plain e
    let tail ← joinIn scope es
    return head.display ++ tail

end

/-- The value of a whole formula. -/
def evaluate {m : Type → Type} [Monad m] (scope : String → m Json) (e : Expr) : m Value :=
  e.evaluateIn scope .plain

end Cohort.Formula.Expr
