import Mathlib.Tactic.Lemma
import Cohort.Formula.Evaluation
set_option relaxedAutoImplicit false
set_option autoImplicit false

/-!
# Kinds of values

Which kinds of values a formula may have depends on its parts and on the mode, and not on what is
looked up. Attributes and texts are coerced as the mode needs them. Each operation of arithmetic has
a table of the kinds of operands that it calculates with; everything else is null. So the kinds of a
formula are computed from those of its parts.

## Main definitions

* `Cohort.Formula.Kind` — the kinds of values.
* `Cohort.Formula.calculatedKinds` — the table of the operations of arithmetic.
* `Cohort.Formula.Expr.kinds` — the kinds of values that a formula may have.

## Main results

* `Cohort.Formula.kind_calculate`, `Cohort.Formula.kind_compareValues` — the kinds of what is
  calculated and compared.
* `Cohort.Formula.Expr.kind_evaluateIn` — a formula has a value of one of its kinds.
* `Cohort.Formula.Expr.kind_arithmetic`, `Cohort.Formula.Expr.kind_comparison` — arithmetic has no
  text and no truth value, and a comparison has a truth value or none. -/

namespace Cohort.Formula

/-- The kinds of values. -/
inductive Kind where
  | null
  | text
  | number
  | bool
  | date
  | duration
deriving DecidableEq, Repr

/-- The kind of a value. -/
@[simp]
def Value.kind : Value → Kind
  | .null => .null
  | .text _ => .text
  | .number _ => .number
  | .bool _ => .bool
  | .date _ => .date
  | .duration _ => .duration

variable {v w : Value}

/-- Null is the only value of its kind. -/
lemma Value.kind_eq_null : v.kind = .null ↔ v = .null := by
  cases v <;> simp

/-! ### Attributes and texts -/

/-- The kinds of attributes. -/
def attributeKinds : List Kind :=
  [.null, .bool, .number, .text]

/-- An attribute has the kind of an attribute. -/
lemma kind_ofJson (v : Json) : (Value.ofJson v).kind ∈ attributeKinds := by
  cases v <;> simp [Value.ofJson, attributeKinds]

/-- The kinds that a mode makes of a kind. -/
def coercedKinds : Mode → Kind → List Kind
  | .math, .text => [.number, .null]
  | .math, .bool => [.null]
  | .date, .text => [.date, .null]
  | _, kind => [kind]

/-- A mode makes of a value one of the kinds it makes of its kind. -/
lemma kind_coerce (mode : Mode) (v : Value) :
    (coerce mode v).kind ∈ coercedKinds mode v.kind := by
  cases v with
  | text s =>
    cases mode with
    | plain => exact List.mem_singleton_self _
    | math => simp only [coerce]; split <;> simp [coercedKinds]
    | date => simp only [coerce]; split <;> simp [coercedKinds]
  | _ => cases mode <;> exact List.mem_singleton_self _

/-! ### Operations -/

/-- The kinds of what an operation of arithmetic gives for operands of two kinds. -/
def calculatedKinds : ArithmeticOp → Kind → Kind → List Kind
  | .add, .number, .number | .subtract, .number, .number | .multiply, .number, .number => [.number]
  | .add, .duration, .duration | .subtract, .duration, .duration => [.duration]
  | .multiply, .duration, .number | .multiply, .number, .duration => [.duration]
  | .divide, .number, .number | .divide, .duration, .duration => [.number, .null]
  | .divide, .duration, .number => [.duration, .null]
  | .add, .date, .duration | .add, .duration, .date | .subtract, .date, .duration => [.date, .null]
  | .subtract, .date, .date => [.duration]
  | _, _, _ => [.null]

/-- An instant that is moved is an instant, or null if it leaves the calendar. -/
lemma kind_shift (t : Instant) (x : Float) : (shift t x).kind ∈ [Kind.date, .null] := by
  simp only [shift]
  split
  · split <;> simp
  · simp

/-- A quotient has its kind, and without one the value is null. -/
lemma kind_quotient {b : Float} {kind : Kind} (h : v.kind = kind) :
    (if Decimal.isZero b then Value.null else v).kind ∈ [kind, .null] := by
  split
  · exact List.mem_cons_of_mem _ (List.mem_singleton_self _)
  · exact h ▸ List.mem_cons_self

/-- An operation of arithmetic gives a value of one of the kinds of the table. -/
theorem kind_calculate (op : ArithmeticOp) (v w : Value) :
    (calculate op v w).kind ∈ calculatedKinds op v.kind w.kind := by
  cases v <;> cases w <;> cases op
  all_goals first
    | exact List.mem_singleton_self _
    | exact kind_shift _ _
    | exact kind_quotient rfl

/-- The table has no text and no truth value. -/
lemma calculatedKinds_subset (op : ArithmeticOp) (k k' : Kind) :
    calculatedKinds op k k' ⊆ [.null, .number, .date, .duration] := by
  cases op <;> cases k <;> cases k' <;> decide

/-- The kinds of a comparison without null: values that do not compare are different, and no more is
known. -/
def answerKinds : ComparisonOp → List Kind
  | .equal | .notEqual => [.bool]
  | _ => [.bool, .null]

/-- The kinds of a comparison of two kinds. -/
def comparedKinds (op : ComparisonOp) (k k' : Kind) : List Kind :=
  if k = .null ∨ k' = .null then [.null] else answerKinds op

/-- A comparison with null is null. -/
lemma compareValues_of_null (op : ComparisonOp) (h : v = .null ∨ w = .null) :
    compareValues op v w = .null :=
  if_pos (by simpa using h)

/-- A comparison without null has one of the kinds of its answers. -/
lemma kind_compareValues_of_ne (op : ComparisonOp) (h : ¬ (v = .null ∨ w = .null)) :
    (compareValues op v w).kind ∈ answerKinds op := by
  rw [compareValues, if_neg (by simpa using h)]
  cases orderValues v w with
  | some o => cases op <;> simp [answerKinds]
  | none => cases op <;> simp [ComparisonOp.ofIncomparable, answerKinds]

/-- A comparison with null is null, a test whether two other values are the same a truth value, and
any other comparison one of the two. -/
theorem kind_compareValues (op : ComparisonOp) (v w : Value) :
    (compareValues op v w).kind ∈ comparedKinds op v.kind w.kind := by
  have hkind : v.kind = .null ∨ w.kind = .null ↔ v = .null ∨ w = .null :=
    or_congr Value.kind_eq_null Value.kind_eq_null
  by_cases hnull : v = .null ∨ w = .null
  · rw [compareValues_of_null op hnull, comparedKinds, if_pos (hkind.2 hnull)]
    exact List.mem_singleton_self _
  · rw [comparedKinds, if_neg fun h => hnull (hkind.1 h)]
    exact kind_compareValues_of_ne op hnull

/-- Comparisons are null or truth values. -/
lemma comparedKinds_subset (op : ComparisonOp) (k k' : Kind) :
    comparedKinds op k k' ⊆ [.null, .bool] := by
  cases op <;> cases k <;> cases k' <;> decide

/-- The kind of the opposite of a value of a kind. -/
def oppositeKind : Kind → Kind
  | .number => .number
  | .duration => .duration
  | _ => .null

/-- The kind of an opposite is determined by the kind of the value. -/
lemma kind_opposite (v : Value) : (opposite v).kind = oppositeKind v.kind := by
  cases v <;> rfl

/-! ### Calls -/

/-- The kinds that a calculation with numbers makes of a kind. -/
def mathKinds : Kind → List Kind
  | .number => [.number, .null]
  | _ => [.null]

/-- The kinds that a calculation with instants makes of a kind. -/
def dateKinds : Kind → List Kind
  | .date => [.date]
  | .duration => [.duration, .null]
  | _ => [.null]

/-- A calculation with numbers gives a number for a number, or null, and null for the rest. -/
lemma kind_mathResult (v : Value) : (mathResult v).kind ∈ mathKinds v.kind := by
  cases v with
  | number x => simp only [mathResult]; split <;> simp [mathKinds]
  | _ => exact List.mem_singleton_self _

/-- A calculation with dates keeps instants, keeps durations or makes them null, and makes null of
the rest. -/
lemma kind_dateResult (v : Value) : (dateResult v).kind ∈ dateKinds v.kind := by
  cases v with
  | duration x => simp only [dateResult]; split <;> simp [dateKinds]
  | _ => exact List.mem_singleton_self _

/-- A calculation with numbers gives a finite number, if it gives one. -/
lemma mathResult_finite (v : Value) :
    mathResult v = .null ∨ ∃ x : Float, x.isFinite = true ∧ mathResult v = .number x := by
  cases v with
  | number x =>
    rw [mathResult]
    split
    case isTrue hfinite => exact .inr ⟨x, hfinite, rfl⟩
    case isFalse => exact .inl rfl
  | _ => exact .inl rfl

/-- A calculation with instants gives a finite length of time, if it gives one. -/
lemma dateResult_finite (v : Value) :
    dateResult v = .null ∨ (∃ t, dateResult v = .date t) ∨
      ∃ x : Float, x.isFinite = true ∧ dateResult v = .duration x := by
  cases v with
  | date t => exact .inr (.inl ⟨t, rfl⟩)
  | duration x =>
    rw [dateResult]
    split
    case isTrue hfinite => exact .inr (.inr ⟨x, hfinite, rfl⟩)
    case isFalse => exact .inl rfl
  | _ => exact .inl rfl

/-! ### Formulas -/

namespace Expr

/-- The kinds of values that a formula may have inside a calculation of a mode. -/
def kinds (mode : Mode) : Expr → List Kind
  | .ident _ => attributeKinds.flatMap (coercedKinds mode)
  | .text _ => coercedKinds mode .text
  | .number _ => [.number]
  | .duration _ => [.duration]
  | .bool _ => [.bool]
  | .null => [.null]
  | .cat _ _ => [.text]
  | .choose _ accepted rejected => kinds mode accepted ++ kinds mode rejected
  | .math body => (kinds .math body).flatMap mathKinds
  | .date body => (kinds .date body).flatMap dateKinds
  | .arithmetic op left right =>
    (kinds mode left).flatMap fun k => (kinds mode right).flatMap (calculatedKinds op k)
  | .comparison op left right =>
    (kinds mode left).flatMap fun k => (kinds mode right).flatMap (comparedKinds op k)
  | .negate body => (kinds mode body).map oppositeKind

variable {σ : Type} (scope : String → StateM σ Json)

/-- A formula has a value of one of its kinds, whatever is looked up.

**Proof sketch.** Induction on the formula. A text is coerced where it stands, and so is an
attribute; but the text of `CAT` is left as it is in every mode. -/
theorem kind_evaluateIn (mode : Mode) (e : Expr) (s : σ) :
    (e.evaluateIn scope mode s).1.kind ∈ e.kinds mode := by
  cases e with
  | ident name =>
    rw [evaluateIn, kinds]
    exact List.mem_flatMap.2 ⟨_, kind_ofJson _, kind_coerce mode _⟩
  | text s => rw [evaluateIn]; exact kind_coerce mode (.text s)
  | number _ => rw [evaluateIn]; exact List.mem_singleton_self _
  | duration _ => rw [evaluateIn]; exact List.mem_singleton_self _
  | bool _ => rw [evaluateIn]; exact List.mem_singleton_self _
  | null => rw [evaluateIn]; exact List.mem_singleton_self _
  | cat _ _ => rw [evaluateIn]; exact List.mem_singleton_self _
  | choose condition accepted rejected =>
    rw [evaluateIn, kinds, List.mem_append]
    change ((if (condition.evaluateIn scope .plain s).1.isTruthy then
      accepted.evaluateIn scope mode else rejected.evaluateIn scope mode) _).1.kind ∈ _ ∨
      ((if (condition.evaluateIn scope .plain s).1.isTruthy then
      accepted.evaluateIn scope mode else rejected.evaluateIn scope mode) _).1.kind ∈ _
    split
    · exact .inl (kind_evaluateIn mode accepted _)
    · exact .inr (kind_evaluateIn mode rejected _)
  | math body =>
    rw [evaluateIn, kinds]
    exact List.mem_flatMap.2 ⟨_, kind_evaluateIn .math body s, kind_mathResult _⟩
  | date body =>
    rw [evaluateIn, kinds]
    exact List.mem_flatMap.2 ⟨_, kind_evaluateIn .date body s, kind_dateResult _⟩
  | arithmetic op left right =>
    rw [evaluateIn, kinds]
    exact List.mem_flatMap.2 ⟨_, kind_evaluateIn mode left s,
      List.mem_flatMap.2 ⟨_, kind_evaluateIn mode right _, kind_calculate op _ _⟩⟩
  | comparison op left right =>
    rw [evaluateIn, kinds]
    exact List.mem_flatMap.2 ⟨_, kind_evaluateIn mode left s,
      List.mem_flatMap.2 ⟨_, kind_evaluateIn mode right _, kind_compareValues op _ _⟩⟩
  | negate body =>
    rw [evaluateIn, kinds]
    exact List.mem_map.2 ⟨_, kind_evaluateIn mode body s, (kind_opposite _).symm⟩

/-- A text from `CAT` is no operand: a sum with it is null, whatever the attribute is. -/
example : ∀ kind ∈ (Expr.math (.arithmetic .add (.ident "a") (.cat (.text "1") []))).kinds .plain,
    kind = .null := by decide

/-- Arithmetic has no text and no truth value. -/
theorem kind_arithmetic (op : ArithmeticOp) (left right : Expr) (mode : Mode) (s : σ) :
    ((Expr.arithmetic op left right).evaluateIn scope mode s).1.kind ∈
      [Kind.null, .number, .date, .duration] := by
  have hkind := kind_evaluateIn scope mode (.arithmetic op left right) s
  simp only [kinds, List.mem_flatMap] at hkind
  obtain ⟨k, -, k', -, hmem⟩ := hkind
  exact calculatedKinds_subset op k k' hmem

/-- Nor has the opposite of a value. -/
theorem kind_negate (body : Expr) (mode : Mode) (s : σ) :
    ((Expr.negate body).evaluateIn scope mode s).1.kind ∈ [Kind.null, .number, .duration] := by
  have hkind := kind_evaluateIn scope mode (.negate body) s
  rw [kinds, List.mem_map] at hkind
  obtain ⟨k, -, hk⟩ := hkind
  rw [← hk]
  cases k <;> decide

/-- A comparison has a truth value or none. -/
theorem kind_comparison (op : ComparisonOp) (left right : Expr) (mode : Mode) (s : σ) :
    ((Expr.comparison op left right).evaluateIn scope mode s).1.kind ∈ [Kind.null, .bool] := by
  have hkind := kind_evaluateIn scope mode (.comparison op left right) s
  simp only [kinds, List.mem_flatMap] at hkind
  obtain ⟨k, -, k', -, hmem⟩ := hkind
  exact comparedKinds_subset op k k' hmem

end Expr

end Cohort.Formula
