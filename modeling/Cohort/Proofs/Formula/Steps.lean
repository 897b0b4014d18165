import Cohort.Proofs.Formula.Evaluation
import Cohort.Proofs.Formula.Kinds
import Cohort.Proofs.Instant.Shift
set_option relaxedAutoImplicit false
set_option autoImplicit false

/-!
# Evaluating formulas step by step

The operations of arithmetic are made of steps that are not defined everywhere. A quotient needs a
divisor that is not zero, a float that is cast to a word has to be finite, and the milliseconds
between two instants have to fit a word. Here the steps that come to such an operand go wrong. None
ever does: a zero divisor and an infinite number of milliseconds are found before, and a number of
milliseconds that does not fit a word is cut to the greatest or least one, by which no instant can
be moved. So every formula has a value, and one of the right kind.

## Main definitions

* `Cohort.Formula.stepQuotient`, `Cohort.Formula.stepWord`, `Cohort.Formula.stepMillis` — steps that
  may go wrong.
* `Cohort.Formula.stepCalculate` — the operations of arithmetic, step by step.
* `Cohort.Formula.Expr.stepIn` — the value of a formula, step by step.

## Main results

* `Cohort.Formula.stepCalculate_eq` — no operation goes wrong.
* `Cohort.Formula.Expr.stepIn_eq` — no evaluation does.
* `Cohort.Formula.Expr.evaluateIn_wellKinded` — every formula has a value, of the right kind. -/

namespace Cohort.Formula

/-! ### Steps -/

/-- A quotient. It goes wrong if the divisor is zero. -/
def stepQuotient (a b : Float) : Option Float :=
  if Decimal.isZero b then none else some (a / b)

/-- The whole number nearest to a float as a signed word of 64 bits; what does not fit is cut to the
greatest or least word. It goes wrong if the float is not finite. -/
def stepWord (x : Float) : Option ℤ :=
  if x.isFinite then some (max (-0x8000000000000000) (min (roundedFloat x) 0x7FFFFFFFFFFFFFFF))
  else none

/-- The milliseconds from one instant to another. It goes wrong if they do not fit a signed word of
64 bits. -/
def stepMillis (a b : Instant) : Option ℤ :=
  Instant.signedWord? (a.millisSince b)

/-- An instant moved by seconds. They are counted in milliseconds, as a word if they are finite and
no more than the greatest one; the least word is no length of time. -/
def stepShift (t : Instant) (seconds : Float) : Option Value :=
  let millis := seconds * 1000.0
  if !millis.isFinite || 0x8000000000000000 < (roundedFloat millis).natAbs then some .null
  else
    (stepWord millis).map fun word =>
      if word = -0x8000000000000000 then .null
      else ((t.addMillis? word).map Value.date).getD .null

/-- The operations of arithmetic, step by step. -/
def stepCalculate : ArithmeticOp → Value → Value → Option Value
  | .divide, .number a, .number b =>
    if Decimal.isZero b then some .null else (stepQuotient a b).map .number
  | .divide, .duration a, .number b =>
    if Decimal.isZero b then some .null else (stepQuotient a b).map .duration
  | .divide, .duration a, .duration b =>
    if Decimal.isZero b then some .null else (stepQuotient a b).map .number
  | .add, .date t, .duration s | .add, .duration s, .date t => stepShift t s
  | .subtract, .date t, .duration s => stepShift t (-s)
  | .subtract, .date a, .date b => do
    let millis ← stepMillis a b
    return .duration (← stepQuotient (Float.ofInt millis) 1000.0)
  | op, v, w => some (calculate op v w)

/-- A divisor that was found not to be zero gives a quotient. -/
lemma step_quotient_eq (f : Float → Value) (a b : Float) :
    (if Decimal.isZero b then some .null else (stepQuotient a b).map f) =
      some (if Decimal.isZero b then .null else f (a / b)) := by
  by_cases hzero : Decimal.isZero b = true
  · rw [if_pos hzero, if_pos hzero]
  · rw [if_neg hzero, if_neg hzero, stepQuotient, if_neg hzero, Option.map_some]

/-- No step of moving an instant goes wrong.

**Proof sketch.** Milliseconds that fit in a word are kept, and the others are cut to the greatest
or the least word. By either number of milliseconds there is no instant, so the result is the
same. -/
lemma stepShift_eq (t : Instant) (seconds : Float) :
    stepShift t seconds = some (shift t seconds) := by
  simp only [stepShift, shift, stepWord]
  generalize seconds * 1000.0 = millis
  by_cases hfinite : millis.isFinite = true
  swap
  · simp only [hfinite, Bool.not_false, Bool.true_or, if_true, Bool.false_eq_true, if_false]
  simp only [hfinite, Bool.not_true, Bool.false_or, decide_eq_true_eq, if_true, Option.map_some]
  generalize roundedFloat millis = n
  by_cases hfar : 0x7FFFFFFFFFFFFFFF ≤ n.natAbs
  · -- so far away there is no instant, and none as far as the greatest word either
    have hword : 0x7FFFFFFFFFFFFFFF ≤
        (max (-0x8000000000000000) (min n 0x7FFFFFFFFFFFFFFF)).natAbs := by omega
    simp only [Instant.addMillis?_eq_none_of_le hfar, Instant.addMillis?_eq_none_of_le hword,
      Option.map_none, Option.getD_none, ite_self]
  · have hword : max (-0x8000000000000000) (min n 0x7FFFFFFFFFFFFFFF) = n := by omega
    rw [hword, if_neg (by omega), if_neg (by omega)]
    cases t.addMillis? n <;> rfl

/-- No operation of arithmetic goes wrong. -/
theorem stepCalculate_eq (op : ArithmeticOp) (v w : Value) :
    stepCalculate op v w = some (calculate op v w) := by
  have hmillis : Decimal.isZero 1000.0 = false := by decide
  cases v <;> cases w <;> cases op
  case date.date.subtract a b =>
    simp only [stepCalculate, stepMillis, Instant.signedWord?_millisSince, stepQuotient, hmillis]
    rfl
  all_goals first
    | rfl
    | exact step_quotient_eq _ _ _
    | exact stepShift_eq _ _

namespace Expr

mutual

/-- The value of a formula inside a calculation of a mode, step by step. It goes wrong if a
step of arithmetic does. -/
def stepIn {m : Type → Type} [Monad m] (scope : String → OptionT m Json) (mode : Mode) :
    Expr → OptionT m Value
  | .ident name => do return coerce mode (.ofJson (← scope name))
  | .text s => return coerce mode (.text s)
  | .number x => return .number x
  | .duration x => return .duration x
  | .bool b => return .bool b
  | .null => return .null
  | .cat first rest => do
    let head ← stepIn scope .plain first
    let tail ← stepJoin scope rest
    return .text (head.display ++ tail)
  | .choose condition accepted rejected => do
    let held ← stepIn scope .plain condition
    if held.isTruthy then stepIn scope mode accepted else stepIn scope mode rejected
  | .math body => do return mathResult (← stepIn scope .math body)
  | .date body => do return dateResult (← stepIn scope .date body)
  | .arithmetic op left right => do
    let l ← stepIn scope mode left
    let r ← stepIn scope mode right
    OptionT.mk (pure (stepCalculate op l r))
  | .comparison op left right => do
    let l ← stepIn scope mode left
    let r ← stepIn scope mode right
    return compareValues op l r
  | .negate body => do return opposite (← stepIn scope mode body)

/-- The texts of formulas, joined step by step. -/
def stepJoin {m : Type → Type} [Monad m] (scope : String → OptionT m Json) :
    List Expr → OptionT m String
  | [] => return ""
  | e :: es => do
    let head ← stepIn scope .plain e
    let tail ← stepJoin scope es
    return head.display ++ tail

end

section Steps

variable {m : Type → Type} [Monad m] (scope : String → OptionT m Json)

mutual

/-- No step of an evaluation goes wrong.

**Proof sketch.** Induction on the formula. The steps differ from the evaluation in arithmetic only,
and there the operations do not go wrong whatever the operands are. -/
theorem stepIn_eq (mode : Mode) (e : Expr) : e.stepIn scope mode = e.evaluateIn scope mode := by
  cases e with
  | cat first rest => rw [stepIn, evaluateIn, stepIn_eq .plain first, stepJoin_eq rest]
  | choose condition accepted rejected =>
    rw [stepIn, evaluateIn, stepIn_eq .plain condition, stepIn_eq mode accepted,
      stepIn_eq mode rejected]
  | math body => rw [stepIn, evaluateIn, stepIn_eq .math body]
  | date body => rw [stepIn, evaluateIn, stepIn_eq .date body]
  | arithmetic op left right =>
    rw [stepIn, evaluateIn, stepIn_eq mode left, stepIn_eq mode right]
    simp only [stepCalculate_eq]
    rfl
  | comparison op left right =>
    rw [stepIn, evaluateIn, stepIn_eq mode left, stepIn_eq mode right]
  | negate body => rw [stepIn, evaluateIn, stepIn_eq mode body]
  | _ => rw [stepIn, evaluateIn]

/-- Joining texts step by step goes well and gives the joined text. -/
theorem stepJoin_eq (es : List Expr) : stepJoin scope es = joinIn scope es := by
  cases es with
  | nil => rw [stepJoin, joinIn]
  | cons e es => rw [stepJoin, joinIn, stepIn_eq .plain e, stepJoin_eq es]

end

end Steps

/-- A computation that does not go wrong runs as it does where none can. -/
def lifting (m : Type → Type) [Monad m] [LawfulMonad m] : Simulation (OptionT m) m where
  Related x y := x = OptionT.lift y
  related_pure a := by simp
  related_bind hx hf := by
    subst hx
    simp [OptionT.ext_iff, hf]

variable {σ : Type} (scope : String → StateM σ Json)

/-- Step by step a formula has the same value, and looks up the same. -/
lemma run_stepIn (mode : Mode) (e : Expr) (s : σ) :
    (e.stepIn (fun name => OptionT.lift (scope name)) mode).run s =
      (some (e.evaluateIn scope mode s).1, (e.evaluateIn scope mode s).2) := by
  have hlift : e.evaluateIn (fun name => OptionT.lift (scope name)) mode =
      OptionT.lift (e.evaluateIn scope mode) :=
    evaluateIn_related (lifting (StateM σ)) mode e fun _ _ => rfl
  rw [stepIn_eq, hlift]
  rfl

/-- Every formula has a value, of the right kind: `CAT` a text, `MATH` null or a finite number,
`DATE` null, an instant or a finite length of time, a comparison null or a truth value, and null if
a side is null; arithmetic has no text and no truth value. Worked out step by step the value is the
same: no divisor is zero and no other step goes wrong, whatever is looked up.

**Proof sketch.** Each construct gets its kinds from the table of the operation that it applies, and
steps and evaluation are the same function (`run_stepIn`). -/
theorem evaluateIn_wellKinded (mode : Mode) (s : σ) :
    let value (e : Expr) (s : σ) := (e.evaluateIn scope mode s).1
    (∀ first rest, ∃ text, value (.cat first rest) s = .text text) ∧
      (∀ body, value (.math body) s = .null ∨
        ∃ x : Float, x.isFinite = true ∧ value (.math body) s = .number x) ∧
      (∀ body, value (.date body) s = .null ∨ (∃ t, value (.date body) s = .date t) ∨
        ∃ x : Float, x.isFinite = true ∧ value (.date body) s = .duration x) ∧
      (∀ op left right, (value (.comparison op left right) s).kind ∈ [Kind.null, .bool] ∧
        (value left s = .null ∨ value right (left.evaluateIn scope mode s).2 = .null →
          value (.comparison op left right) s = .null)) ∧
      (∀ op left right, (value (.arithmetic op left right) s).kind ∉ [Kind.text, .bool]) ∧
      (∀ body, (value (.negate body) s).kind ∉ [Kind.text, .bool]) ∧
      ∀ e : Expr, (e.stepIn (fun name => OptionT.lift (scope name)) mode).run s =
        (some (value e s), (e.evaluateIn scope mode s).2) := by
  intro value
  have harithmetic : ∀ kind ∈ [Kind.null, .number, .date, .duration],
      kind ∉ [Kind.text, .bool] := by decide
  have hopposite : ∀ kind ∈ [Kind.null, .number, .duration], kind ∉ [Kind.text, .bool] := by decide
  refine ⟨fun first rest => ?_, fun body => ?_, fun body => ?_, fun op left right => ⟨?_, ?_⟩,
    fun op left right => ?_, fun body => ?_, fun e => run_stepIn scope mode e s⟩
  · simp only [value, evaluateIn]
    exact ⟨_, rfl⟩
  · simp only [value, evaluateIn]
    exact mathResult_finite _
  · simp only [value, evaluateIn]
    exact dateResult_finite _
  · exact kind_comparison scope op left right mode s
  · intro hnull
    simp only [value, evaluateIn]
    exact compareValues_of_null op hnull
  · exact harithmetic _ (kind_arithmetic scope op left right mode s)
  · exact hopposite _ (kind_negate scope body mode s)

end Expr

end Cohort.Formula
