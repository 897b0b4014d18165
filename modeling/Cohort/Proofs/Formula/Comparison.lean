import Cohort.Proofs.Decimal.Order
import Cohort.Proofs.Formula.Kinds
import Cohort.Proofs.Instant.Order
set_option relaxedAutoImplicit false
set_option autoImplicit false

/-!
# Comparisons agree with one another

There are six comparisons, and values of six kinds. Two values that compare do so in one of three
ways, the other way round from the other side, and every comparison is a question about that way. So
what holds between the six holds for all values: each has one that asks the same from the other
side, and one that asks for the opposite.

## Main definitions

* `Cohort.Formula.ComparisonOp.flipped` — the comparison that asks the same from the other side.
* `Cohort.Formula.ComparisonOp.negated` — the comparison that asks for the opposite.
* `Cohort.Formula.Opposes` — answers that say the opposite of one another.

## Main results

* `Cohort.Formula.orderValues_swap` — values compare the other way round from the other side.
* `Cohort.Formula.compareValues_flipped`, `Cohort.Formula.compareValues_negated` — what comparisons
  answer.
* `Cohort.Formula.comparisons_coherent` — the laws of comparisons.
-/

namespace Cohort.Formula

variable {l r : Value}

/-- The comparison that asks the same from the other side. -/
def ComparisonOp.flipped : ComparisonOp → ComparisonOp
  | .equal => .equal
  | .notEqual => .notEqual
  | .greater => .less
  | .atLeast => .atMost
  | .less => .greater
  | .atMost => .atLeast

/-- The comparison that asks for the opposite. -/
def ComparisonOp.negated : ComparisonOp → ComparisonOp
  | .equal => .notEqual
  | .notEqual => .equal
  | .greater => .atMost
  | .atLeast => .less
  | .less => .atLeast
  | .atMost => .greater

/-- Answers that say the opposite of one another: truth values that differ. The opposite of no
answer is none. -/
inductive Opposes : Value → Value → Prop
  | null : Opposes .null .null
  | bool (b : Bool) : Opposes (.bool b) (.bool !b)

/-! ### The way in which values compare -/

/-- Values compare the other way round from the other side, or from neither.

**Proof sketch.** By the kinds of both values. A number and a text compare as numbers if the text
names one, and kinds that do not compare do so from neither side. -/
theorem orderValues_swap (l r : Value) :
    orderValues r l = (orderValues l r).map Ordering.swap := by
  cases l <;> cases r
  case number.number x y => exact Decimal.order_swap x y
  case duration.duration x y => exact Decimal.order_swap x y
  case date.date a b => exact congrArg some (Instant.order_swap a b)
  case bool.bool a b => exact congrArg some Std.OrientedOrd.eq_swap
  case text.text a b => exact congrArg some Std.OrientedOrd.eq_swap
  case number.text x s =>
    simp only [orderValues]
    cases Json.numberOfText? s with
    | none => rfl
    | some y => exact Decimal.order_swap x y
  case text.number s y =>
    simp only [orderValues]
    cases Json.numberOfText? s with
    | none => rfl
    | some x => exact Decimal.order_swap x y
  all_goals rfl

/-! ### What comparisons answer -/

/-- The comparison from the other side holds where the comparison does. -/
lemma accepts_flipped (op : ComparisonOp) (o : Ordering) :
    op.flipped.accepts o.swap = op.accepts o := by
  cases op <;> cases o <;> rfl

/-- From the other side, values that do not compare are answered alike. -/
lemma ofIncomparable_flipped (op : ComparisonOp) :
    op.flipped.ofIncomparable = op.ofIncomparable := by
  cases op <;> rfl

/-- The opposite comparison holds where the comparison does not. -/
lemma accepts_negated (op : ComparisonOp) (o : Ordering) :
    op.negated.accepts o = !op.accepts o := by
  cases op <;> cases o <;> rfl

/-- Values that do not compare are answered with opposites by opposite comparisons. -/
lemma opposes_ofIncomparable (op : ComparisonOp) :
    Opposes op.ofIncomparable op.negated.ofIncomparable := by
  cases op <;> constructor

/-- The answer to a comparison of values that are not null, given how they compare. -/
def ComparisonOp.answer (op : ComparisonOp) : Option Ordering → Value
  | some o => .bool (op.accepts o)
  | none => op.ofIncomparable

/-- A comparison of values that are not null depends only on how they compare. -/
lemma compareValues_of_ne (op : ComparisonOp) (h : ¬ (l = .null ∨ r = .null)) :
    compareValues op l r = op.answer (orderValues l r) := by
  rw [compareValues, if_neg (by simpa using h)]
  rfl

/-- From the other side the flipped comparison has the same answer. -/
theorem compareValues_flipped (op : ComparisonOp) (l r : Value) :
    compareValues op.flipped r l = compareValues op l r := by
  by_cases hnull : l = .null ∨ r = .null
  · rw [compareValues_of_null op hnull, compareValues_of_null op.flipped hnull.symm]
  · rw [compareValues_of_ne op hnull, compareValues_of_ne op.flipped fun h => hnull h.symm,
      orderValues_swap l r]
    cases orderValues l r with
    | none => exact ofIncomparable_flipped op
    | some o => exact congrArg Value.bool (accepts_flipped op o)

/-- The negated comparison has the opposite answer, and none where there is none. -/
theorem compareValues_negated (op : ComparisonOp) (l r : Value) :
    Opposes (compareValues op l r) (compareValues op.negated l r) := by
  by_cases hnull : l = .null ∨ r = .null
  · rw [compareValues_of_null op hnull, compareValues_of_null op.negated hnull]
    exact .null
  · rw [compareValues_of_ne op hnull, compareValues_of_ne op.negated hnull]
    cases orderValues l r with
    | none => exact opposes_ofIncomparable op
    | some o =>
      simp only [ComparisonOp.answer, accepts_negated]
      exact .bool _

/-- Whether two values are the same is known unless one of them is null. -/
lemma compareValues_eq_null {op : ComparisonOp} (hop : op = .equal ∨ op = .notEqual) :
    compareValues op l r = .null ↔ l = .null ∨ r = .null := by
  constructor
  · intro h
    by_contra hnull
    rw [compareValues_of_ne op hnull] at h
    rcases hop with rfl | rfl <;> cases hway : orderValues l r <;> rw [hway] at h <;> cases h
  · exact compareValues_of_null op

/-- Where values are ordered, they are the same if neither comes before the other. -/
lemma compareValues_equal_iff (h : compareValues .less l r ≠ .null) :
    compareValues .equal l r = .bool true ↔
      compareValues .atMost l r = .bool true ∧ compareValues .atLeast l r = .bool true := by
  have hnull : ¬ (l = .null ∨ r = .null) := fun hnull => h (compareValues_of_null .less hnull)
  rw [compareValues_of_ne _ hnull] at h ⊢
  rw [compareValues_of_ne _ hnull, compareValues_of_ne _ hnull]
  cases hway : orderValues l r with
  | none =>
    rw [hway] at h
    exact absurd rfl h
  | some o => cases o <;> decide

/-- The comparisons of any two values agree with one another. Whether they are the same and whether
they are different are opposite answers, and neither has an answer exactly where a value is null.
From the other side greater is less, and at least is at most. Where less has an answer at least has
the opposite one, and the values are the same exactly where each is at most the other. -/
theorem comparisons_coherent (l r : Value) :
    Opposes (compareValues .equal l r) (compareValues .notEqual l r) ∧
      (compareValues .equal l r = .null ↔ l = .null ∨ r = .null) ∧
      (compareValues .notEqual l r = .null ↔ l = .null ∨ r = .null) ∧
      compareValues .greater l r = compareValues .less r l ∧
      compareValues .atLeast l r = compareValues .atMost r l ∧
      (compareValues .less l r ≠ .null →
        Opposes (compareValues .less l r) (compareValues .atLeast l r) ∧
          (compareValues .equal l r = .bool true ↔
            compareValues .atMost l r = .bool true ∧ compareValues .atLeast l r = .bool true)) :=
  ⟨compareValues_negated .equal l r, compareValues_eq_null (.inl rfl),
    compareValues_eq_null (.inr rfl), (compareValues_flipped .greater l r).symm,
    (compareValues_flipped .atLeast l r).symm,
    fun h => ⟨compareValues_negated .less l r, compareValues_equal_iff h⟩⟩

/-- The number 9 compares with the text ` 10 ` as a number: it is less, so it is not at least that,
and the text is greater. A text that names no number is different from it, and no more is known. -/
theorem nine_compared :
    compareValues .less (.number 9) (.text " 10 ") ≠ .null ∧
      Opposes (compareValues .less (.number 9) (.text " 10 "))
        (compareValues .atLeast (.number 9) (.text " 10 ")) ∧
      compareValues .greater (.text " 10 ") (.number 9) = .bool true ∧
      compareValues .notEqual (.number 9) (.text "ten") = .bool true ∧
      compareValues .less (.number 9) (.text "ten") = .null := by
  have hless : compareValues .less (.number 9) (.text " 10 ") = .bool true := by decide +kernel
  have hne : compareValues .less (.number 9) (.text " 10 ") ≠ .null := by
    rw [hless]
    exact Value.noConfusion
  refine ⟨hne, ((comparisons_coherent _ _).2.2.2.2.2 hne).1, ?_, ?_, ?_⟩
  · rw [(comparisons_coherent _ _).2.2.2.1, hless]
  all_goals decide +kernel

end Cohort.Formula
