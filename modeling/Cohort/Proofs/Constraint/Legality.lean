import Cohort.Proofs.Constraint.Operands
import Cohort.Proofs.Decimal.Order
import Cohort.Proofs.Json.Number
set_option relaxedAutoImplicit false
set_option autoImplicit false

/-!
# Legal constraints

Which constraints are accepted is decided in many places: in the table of operators, in the checks
of each type, and in the reading of operands. What they accept together can be said at once. A
constraint is legal if its names are known, the type accepts the operator, and the operands suit it:
they are as many as the operator takes, each can be read as the type, and bounds are in order.

## Main definitions

* `Cohort.DataType.Reads`, `Cohort.DataType.AtMost` — values that are read as a type.
* `Cohort.Operator.arity` — how many operands an operator takes.
* `Cohort.Constraint.Suit` — the operands that suit an operator.
* `Cohort.Constraint.Spec.Legal` — the constraints that should be accepted.

## Main results

* `Cohort.Constraint.exists_makes_iff` — the operands that make a test are those that suit.
* `Cohort.Constraint.exists_compile_iff_legal` — the constraints that are accepted are the legal
  ones.
-/

namespace Cohort

/-! ### Operands that suit an operator -/

namespace DataType

/-- A value can be read as the type. -/
def Reads (t : DataType) (v : Json) : Prop :=
  match t with
  | .string => True
  | .number | .duration => v.toNumber?.isSome = true
  | .boolean => v.toBool?.isSome = true
  | .date => v.toInstant?.isSome = true

/-- A value is at most another one if both are read as the type. -/
inductive AtMost : DataType → Json → Json → Prop
  | numbers {t : DataType} {v w : Json} {x y : Float} (numeric : t.isNumeric = true)
      (low : v.toNumber? = some x) (high : w.toNumber? = some y)
      (le : Decimal.atMost x y = true) : AtMost t v w
  | dates {v w : Json} {a b : Instant} (low : v.toInstant? = some a) (high : w.toInstant? = some b)
      (le : b.before a = false) : AtMost .date v w

end DataType

/-- How many operands an operator takes. One that compares texts takes a set of them, and so does
one that looks for a number among others. -/
def Operator.arity (o : Operator) (t : DataType) : Arity :=
  match o, t with
  | .between, _ => .exactly 2
  | _, .string => .atLeastOne
  | .is, .number | .is, .duration | .isNot, .number | .isNot, .duration => .atLeastOne
  | _, _ => .exactly 1

namespace Constraint

variable {spec : Spec} {c : Constraint} {test : Test} {o : Operator} {t : DataType} {v w : Json}
  {vs : List Json}

/-- Operands suit an operator if they are as many as it takes, can be read as the type, and bounds
are in order. -/
structure Suit (t : DataType) (o : Operator) (vs : List Json) : Prop where
  /-- They are as many as the operator takes. -/
  count : (o.arity t).accepts vs.length = true
  /-- They can be read as the type. -/
  read : ∀ v ∈ vs, t.Reads v
  /-- Bounds are in order. -/
  inOrder : o = .between → ∀ v w, vs = [v, w] → t.AtMost v w

/-- A submitted constraint is legal if its type and its operator have names that are known, the type
accepts the operator, and the operands suit it, unless it takes no notice of them. -/
structure Spec.Legal (spec : Spec) (t : DataType) (o : Operator) : Prop where
  /-- The type has a name that is known. -/
  dataType : DataType.ofName? spec.dataType = some t
  /-- The operator has a name that is known. -/
  operator : Operator.ofName? spec.operator = some o
  /-- The type accepts the operator. -/
  accepted : o ∈ Operator.legal t
  /-- The operands suit the operator. -/
  operands : o.testsPresence = true ∨ Suit t o spec.values

/-- An operator that needs at least one value rejects the empty list only. -/
lemma accepts_atLeastOne : Arity.atLeastOne.accepts vs.length = true ↔ vs ≠ [] := by
  cases vs <;> simp [Arity.accepts]

/-- An operator that needs one value accepts exactly the lists of one value. -/
lemma accepts_one : (Arity.exactly 1).accepts vs.length = true ↔ ∃ v, vs = [v] := by
  rw [← List.length_eq_one_iff]
  exact decide_eq_true_iff

/-- An operator that needs two values accepts exactly the lists of two values. -/
lemma accepts_two : (Arity.exactly 2).accepts vs.length = true ↔ ∃ v w, vs = [v, w] := by
  rw [← List.length_eq_two]
  exact decide_eq_true_iff

/-- Each element of a list can be read if and only if the list can.

**Proof sketch.** Induction on the list. -/
lemma exists_forall₂_iff {α : Type} {read : Json → Option α} :
    (∃ xs, List.Forall₂ (fun v x => read v = some x) vs xs) ↔
      ∀ v ∈ vs, (read v).isSome = true := by
  induction vs with
  | nil => simp
  | cons v vs ih =>
    rw [List.forall_mem_cons, ← ih, Option.isSome_iff_exists]
    constructor
    · rintro ⟨_, hread⟩
      obtain ⟨x, xs, hx, hxs, -⟩ := List.forall₂_cons_left_iff.1 hread
      exact ⟨⟨x, hx⟩, xs, hxs⟩
    · rintro ⟨⟨x, hx⟩, xs, hxs⟩
      exact ⟨x :: xs, .cons hx hxs⟩

/-- A value can be read as a numeric type if it can be read as a number. -/
lemma reads_numeric (ht : t.isNumeric = true) : t.Reads v ↔ v.toNumber?.isSome = true := by
  cases t <;> first | rfl | cases ht

/-- Bounds that are read as numbers are in order unless the upper one is below the lower one. -/
lemma atMost_numbers_iff {x y : Float} (hv : v.toNumber? = some x) (hw : w.toNumber? = some y) :
    Decimal.atMost x y = true ↔ Decimal.below y x = false := by
  have hx := Json.isFinite_of_toNumber? hv
  have hy := Json.isFinite_of_toNumber? hw
  rw [Decimal.atMost_iff hx hy, ← Bool.not_eq_true, Decimal.below_iff hy hx, not_lt]

/-- One operand suits an operator that takes one if it can be read. -/
lemma suit_one (harity : o.arity t = .exactly 1) (hread : t.Reads v) : Suit t o [v] where
  count := by rw [harity]; rfl
  read := by simpa using hread
  inOrder _ _ _ h := by simp at h

/-- Two operands suit an operator that takes two if the second is not below the first. -/
lemma suit_two (hle : t.AtMost v w) : Suit t .between [v, w] where
  count := by cases t <;> rfl
  read := by
    cases hle with
    | numbers hnumeric hlow hhigh _ =>
      simp [reads_numeric hnumeric, hlow, hhigh]
    | dates hlow hhigh _ => simp [DataType.Reads, hlow, hhigh]
  inOrder _ _ _ h := by
    cases h
    exact hle

/-- A single value suits an operator if it can be read. -/
lemma suit_one_iff (harity : o.arity t = .exactly 1) : Suit t o [v] ↔ t.Reads v :=
  ⟨fun h => h.read v (List.mem_singleton_self v), suit_one harity⟩

/-- Two bounds suit each other if the first one is at most the second one. -/
lemma suit_two_iff : Suit t .between [v, w] ↔ t.AtMost v w :=
  ⟨fun h => h.inOrder rfl v w rfl, suit_two⟩

/-- Operands that make a test suit the operator, unless it takes no notice of them.

**Proof sketch.** By the way in which the test is made. Each way has the number of operands that its
operator needs, reads them, and has bounds in order. -/
lemma Makes.suit (h : Makes t o vs test) : o.testsPresence = true ∨ Suit t o vs := by
  cases h with
  | isSet | isNotSet => exact .inl rfl
  | text hasks hsome =>
    refine .inr ⟨?_, fun _ _ => trivial, ?_⟩
    · cases o <;> cases hasks <;> exact accepts_atLeastOne.2 hsome
    · rintro rfl
      cases hasks
  | oneOf hnumeric hsome hread | noneOf hnumeric hsome hread =>
    refine .inr ⟨?_, ?_, nofun⟩
    · cases t <;> cases hnumeric <;> exact accepts_atLeastOne.2 hsome
    · simp only [reads_numeric hnumeric]
      exact exists_forall₂_iff.1 ⟨_, hread⟩
  | above hnumeric hread | below hnumeric hread =>
    refine .inr (suit_one ?_ ((reads_numeric hnumeric).2 (Option.isSome_of_eq_some hread)))
    cases t <;> cases hnumeric <;> rfl
  | between hnumeric hlow hhigh hordered =>
    exact .inr (suit_two (.numbers hnumeric hlow hhigh
      ((atMost_numbers_iff hlow hhigh).2 hordered)))
  | boolean hasks hread =>
    refine .inr (suit_one ?_ (Option.isSome_of_eq_some hread))
    cases o <;> cases hasks <;> rfl
  | before hread | after hread => exact .inr (suit_one rfl (Option.isSome_of_eq_some hread))
  | period hlow hhigh hordered => exact .inr (suit_two (.dates hlow hhigh hordered))

namespace Suit

variable (h : Suit t o vs)
include h

/-- An operator that needs at least one value is given one. -/
lemma ne_nil (harity : o.arity t = .atLeastOne) : vs ≠ [] :=
  accepts_atLeastOne.1 (harity ▸ h.count)

/-- An operator that needs one value is given one that can be read. -/
lemma exists_one (harity : o.arity t = .exactly 1) : ∃ v, vs = [v] ∧ t.Reads v := by
  obtain ⟨v, rfl⟩ := accepts_one.1 (harity ▸ h.count)
  exact ⟨v, rfl, h.read v (List.mem_singleton_self v)⟩

/-- Bounds are given as two values in order. -/
lemma exists_two (ho : o = .between) : ∃ v w, vs = [v, w] ∧ t.AtMost v w := by
  subst ho
  have harity : Operator.between.arity t = .exactly 2 := by cases t <;> rfl
  obtain ⟨v, w, rfl⟩ := accepts_two.1 (harity ▸ h.count)
  exact ⟨v, w, rfl, h.inOrder rfl v w rfl⟩

/-- Legal values of a numeric type make a test.

**Proof sketch.** By the operator. The arity says how many operands there are, all of them can be
read, and from that the way in which a test is made is chosen. -/
lemma exists_makes_numeric (ht : t.isNumeric = true) (hlegal : o ∈ Operator.legal t) :
    ∃ test, Makes t o vs test := by
  have hmany : o.arity t = .atLeastOne →
      vs ≠ [] ∧ ∃ xs, List.Forall₂ (fun v x => v.toNumber? = some x) vs xs := by
    intro harity
    have hread := h.read
    simp only [reads_numeric ht] at hread
    exact ⟨h.ne_nil harity, exists_forall₂_iff.2 hread⟩
  have hone : o.arity t = .exactly 1 → ∃ v x, vs = [v] ∧ v.toNumber? = some x := by
    intro harity
    obtain ⟨v, hv, hread⟩ := h.exists_one harity
    obtain ⟨x, hx⟩ := Option.isSome_iff_exists.1 ((reads_numeric ht).1 hread)
    exact ⟨v, x, hv, hx⟩
  cases o
  case is =>
    obtain ⟨hsome, xs, hxs⟩ := hmany (by cases t <;> cases ht <;> rfl)
    exact ⟨_, .oneOf ht hsome hxs⟩
  case isNot =>
    obtain ⟨hsome, xs, hxs⟩ := hmany (by cases t <;> cases ht <;> rfl)
    exact ⟨_, .noneOf ht hsome hxs⟩
  case greaterThan =>
    obtain ⟨v, x, rfl, hx⟩ := hone (by cases t <;> cases ht <;> rfl)
    exact ⟨_, .above ht hx⟩
  case lessThan =>
    obtain ⟨v, x, rfl, hx⟩ := hone (by cases t <;> cases ht <;> rfl)
    exact ⟨_, .below ht hx⟩
  case between =>
    obtain ⟨v, w, rfl, hle⟩ := h.exists_two rfl
    cases hle with
    | numbers _ hlow hhigh hle =>
      exact ⟨_, .between ht hlow hhigh ((atMost_numbers_iff hlow hhigh).1 hle)⟩
    | dates => cases ht
  case isSet => exact ⟨_, .isSet⟩
  case isNotSet => exact ⟨_, .isNotSet⟩
  -- the other operators are not legal for numbers
  all_goals cases t <;> cases ht <;> exact absurd hlegal (by decide)

end Suit

/-- Operands that suit an operator that the type accepts make a test.

**Proof sketch.** By the type and then by the operator, of which the type accepts only some. Those
for presence make a test of anything, and the others one of the operands, which are of the right
number and can be read. -/
lemma Suit.exists_makes (h : Suit t o vs) (hlegal : o ∈ Operator.legal t) :
    ∃ test, Makes t o vs test := by
  cases t with
  | string =>
    cases o
    case isSet => exact ⟨_, .isSet⟩
    case isNotSet => exact ⟨_, .isNotSet⟩
    case is | isNot | contains | notContains | startsWith | endsWith =>
      exact ⟨_, .text rfl (h.ne_nil rfl)⟩
    all_goals exact absurd hlegal (by decide)
  | number | duration => exact h.exists_makes_numeric rfl hlegal
  | boolean =>
    cases o
    case is | isNot =>
      obtain ⟨v, rfl, hread⟩ := h.exists_one rfl
      obtain ⟨b, hb⟩ := Option.isSome_iff_exists.1 hread
      exact ⟨_, .boolean rfl hb⟩
    all_goals exact absurd hlegal (by decide)
  | date =>
    cases o
    case before =>
      obtain ⟨v, rfl, hread⟩ := h.exists_one rfl
      obtain ⟨a, ha⟩ := Option.isSome_iff_exists.1 hread
      exact ⟨_, .before ha⟩
    case after =>
      obtain ⟨v, rfl, hread⟩ := h.exists_one rfl
      obtain ⟨a, ha⟩ := Option.isSome_iff_exists.1 hread
      exact ⟨_, .after ha⟩
    case between =>
      obtain ⟨v, w, rfl, hle⟩ := h.exists_two rfl
      cases hle with
      | numbers hnumeric => cases hnumeric
      | dates hlow hhigh hle => exact ⟨_, .period hlow hhigh hle⟩
    case isSet => exact ⟨_, .isSet⟩
    case isNotSet => exact ⟨_, .isNotSet⟩
    all_goals exact absurd hlegal (by decide)

/-- Operands of an operator that the type accepts make a test if and only if they suit it, or it
takes no notice of them. -/
theorem exists_makes_iff (hlegal : o ∈ Operator.legal t) :
    (∃ test, Makes t o vs test) ↔ o.testsPresence = true ∨ Suit t o vs := by
  constructor
  · rintro ⟨test, h⟩
    exact h.suit
  · rintro (hpresence | h)
    · cases o <;> cases hpresence
      · exact ⟨_, .isSet⟩
      · exact ⟨_, .isNotSet⟩
    · exact h.exists_makes hlegal

/-- Which operands of an operator that takes notice of them are accepted. -/
lemma exists_compile_iff_suit (spec : Spec)
    (htype : DataType.ofName? spec.dataType = some t)
    (hoperator : Operator.ofName? spec.operator = some o) (hoperands : o.testsPresence = false) :
    (∃ c, compile spec = .ok c) ↔ o ∈ Operator.legal t ∧ Suit t o spec.values := by
  rw [exists_compile_iff_makes htype hoperator]
  refine and_congr_right fun hlegal => ?_
  rw [exists_makes_iff hlegal, hoperands]
  simp

/-- The constraints that are accepted are the legal ones. -/
theorem exists_compile_iff_legal :
    (∃ c, compile spec = .ok c) ↔ ∃ t o, spec.Legal t o := by
  constructor
  · rintro ⟨c, hc⟩
    obtain ⟨ht, ho, hlegal, hmakes, -⟩ := compile_eq_ok_iff_makes.1 hc
    exact ⟨_, _, ht, ho, hlegal, (exists_makes_iff hlegal).1 ⟨_, hmakes⟩⟩
  · rintro ⟨t, o, ht, ho, hlegal, hoperands⟩
    exact (exists_compile_iff_makes ht ho).2 ⟨hlegal, (exists_makes_iff hlegal).2 hoperands⟩

end Constraint

end Cohort
