import Cohort.Proofs.Constraint.Legality
set_option relaxedAutoImplicit false
set_option autoImplicit false

/-!
# Checking constraints step by step

The checks of a constraint count the operands first and then take them out of the list by their
places. And since the type was found to accept the operator before, the checks of each type have no
use for their answer to operators that the type does not accept. Here these steps are made one by
one. One that takes an operand from behind the list goes wrong, and so does one that comes to such
an answer; and this never happens. So the checks accept the legal constraints and refuse all others,
and the error of a refusal is a fault that the constraint has.

## Main definitions

* `Cohort.Constraint.Steps` — checks that may also go wrong.
* `Cohort.Constraint.stepCompile` — the checks of a constraint, step by step.
* `Cohort.Constraint.Spec.HasFault` — what is wrong with a constraint.
* `Cohort.Constraint.Refuses` — checks whose errors have a cause.

## Main results

* `Cohort.Constraint.stepCompile_eq` — no step goes wrong.
* `Cohort.Constraint.refuses_compile` — the error of a refusal is a fault of the constraint.
* `Cohort.Constraint.compile_decides_legality` — the constraints that are accepted are the legal
  ones.
-/

namespace Cohort.Constraint

/-! ### Steps -/

/-- Checks that return a value or an error, or go wrong. -/
abbrev Steps (α : Type) : Type := ExceptT Error Option α

namespace Steps

variable {α β : Type}

/-- A check that does not go wrong. -/
def check (x : Result α) : Steps α := ExceptT.mk (some x)

/-- The element at a place; it goes wrong if the place lies behind the list. -/
def elementAt (xs : List α) (place : Nat) : Steps α := ExceptT.lift xs[place]?

/-- A step that should not be reached. -/
def unreachable : Steps α := ExceptT.mk none

/-- A check that is passed goes on with its value. -/
@[simp] lemma check_ok_bind (a : α) (f : α → Steps β) : (check (.ok a) >>= f) = f a := rfl

/-- A check that is not passed ends the steps. -/
@[simp] lemma check_error_bind (e : Error) (f : α → Steps β) :
    (check (.error e) >>= f) = check (.error e) := rfl

/-- The first element of a list that has one can be looked up. -/
@[simp] lemma elementAt_zero (x : α) (xs : List α) : elementAt (x :: xs) 0 = check (.ok x) := rfl

/-- The second element of a list that has two can be looked up. -/
@[simp] lemma elementAt_one (x y : α) (xs : List α) :
    elementAt (x :: y :: xs) 1 = check (.ok y) := rfl

/-- What follows a check that does not go wrong, and does not go wrong itself, is one with it. -/
lemma check_bind_pure (x : Result α) (f : α → β) :
    (check x >>= fun a => pure (f a)) = check (x >>= fun a => pure (f a)) := by
  cases x <;> rfl

end Steps

open Steps

variable {α : Type} {spec : Spec} {o : Operator} {t : DataType}

/-- The only operand: the operands are counted, all are read, and the first is taken. -/
def stepOne (spec : Spec) (o : Operator) (read : Json → Result α) : Steps α := do
  check (checkArity spec o (.exactly 1))
  let xs ← check (spec.values.mapM read)
  elementAt xs 0

/-- Both bounds: the operands are counted, all are read, and the first two are taken. -/
def stepTwo (spec : Spec) (o : Operator) (read : Json → Result α) (inverted : α → α → Bool) :
    Steps (α × α) := do
  check (checkArity spec o (.exactly 2))
  let xs ← check (spec.values.mapM read)
  let low ← elementAt xs 0
  let high ← elementAt xs 1
  if inverted low high then check (.error (.validation (.invertedBounds spec.field)))
  else return (low, high)

/-- A test of a text. -/
def stepText (spec : Spec) (o : Operator) : Steps Test := do
  check (checkArity spec o .atLeastOne)
  let needles := spec.values.map fun v => Text.lowercase v.toText
  match o with
  | .is => return .text .is false needles
  | .isNot => return .text .is true needles
  | .contains => return .text .contains false needles
  | .notContains => return .text .contains true needles
  | .startsWith => return .text .startsWith false needles
  | .endsWith => return .text .endsWith false needles
  | _ => unreachable

/-- A test of a number. -/
def stepNumber (spec : Spec) (o : Operator) : Steps Test := do
  match o with
  | .is | .isNot =>
    check (checkArity spec o .atLeastOne)
    if o = .is then return .number (.is (← check (spec.values.mapM (numberOperand spec))))
    else return .number (.isNot (← check (spec.values.mapM (numberOperand spec))))
  | .greaterThan => return .number (.above (← stepOne spec o (numberOperand spec)))
  | .lessThan => return .number (.below (← stepOne spec o (numberOperand spec)))
  | .between =>
    let (low, high) ←
      stepTwo spec o (numberOperand spec) fun low high => Decimal.below high low
    return .number (.between low high)
  | _ => unreachable

/-- A test of a truth value: the operands are counted, and the first is taken and read. -/
def stepBoolean (spec : Spec) (o : Operator) : Steps Test := do
  check (checkArity spec o (.exactly 1))
  let v ← elementAt spec.values 0
  let expected ← check (booleanOperand spec v)
  return .boolean expected (o = .isNot)

/-- A test of an instant. -/
def stepDate (spec : Spec) (o : Operator) : Steps Test := do
  match o with
  | .before => return .date (.before (← stepOne spec o (dateOperand spec)))
  | .after => return .date (.after (← stepOne spec o (dateOperand spec)))
  | .between =>
    let (low, high) ← stepTwo spec o (dateOperand spec) fun low high => high.before low
    return .date (.between low high)
  | _ => unreachable

/-- The test of an operator that takes notice of its operands. -/
def stepOperands (spec : Spec) (t : DataType) (o : Operator) : Steps Test :=
  match t with
  | .string => stepText spec o
  | .number | .duration => stepNumber spec o
  | .boolean => stepBoolean spec o
  | .date => stepDate spec o

/-- The test of an operator, step by step. -/
def stepTest (spec : Spec) (t : DataType) (o : Operator) : Steps Test :=
  match o with
  | .isSet => return .isSet
  | .isNotSet => return .isNotSet
  | o => stepOperands spec t o

/-- The checks of a constraint, step by step. -/
def stepCompile (spec : Spec) : Steps Constraint := do
  let dataType ← check (readDataType spec.dataType)
  let operator ← check (readOperator spec.operator)
  if operator ∈ Operator.legal dataType then
    return ⟨spec.field, dataType, operator, ← stepTest spec dataType operator⟩
  else check (illegal spec dataType operator)

/-! ### No step goes wrong -/

/-- Taking one operand step by step goes well and is the check on one operand. -/
lemma stepOne_eq (read : Json → Result α) :
    stepOne spec o read = check (oneOperand spec o read) := by
  unfold stepOne oneOperand checkArity
  match spec.values with
  | [] => rfl
  | [v] =>
    cases hread : read v <;> simp [Arity.accepts, hread]
  | _ :: _ :: _ => simp [Arity.accepts]

/-- Taking two operands step by step goes well and is the check on two operands.

**Proof sketch.** By the number of values. Other than two are refused before an element is looked
up, and of two both look-ups go well. -/
lemma stepTwo_eq (read : Json → Result α) (inverted : α → α → Bool) :
    stepTwo spec o read inverted = check (twoOperands spec o read inverted) := by
  unfold stepTwo twoOperands checkArity
  match spec.values with
  | [] => rfl
  | [_] => rfl
  | [v, w] =>
    simp only [List.mapM_cons, List.mapM_nil]
    cases read v with
    | error e => rfl
    | ok low =>
      cases read w with
      | error e => rfl
      | ok high =>
        show (if inverted low high then _ else _) = check (if inverted low high then _ else _)
        split <;> rfl
  | _ :: _ :: _ :: _ => simp [Arity.accepts]

/-- The steps for truth values go well and are their compilation. -/
lemma stepBoolean_eq : stepBoolean spec o = check (compileBoolean spec o) := by
  unfold stepBoolean compileBoolean oneOperand checkArity
  match spec.values with
  | [] => rfl
  | [v] => exact check_bind_pure (booleanOperand spec v) _
  | _ :: _ :: _ => simp [Arity.accepts]

/-- The steps for texts go well and are their compilation. -/
lemma stepText_eq {relation : TextRelation} {negated : Bool}
    (hasks : o.textRelation? = some (relation, negated)) :
    stepText spec o = check (compileText spec o) := by
  unfold stepText compileText
  cases checkArity spec o .atLeastOne with
  | error e => rfl
  | ok => cases o <;> cases hasks <;> rfl

/-- The steps for numbers go well and are their compilation.

**Proof sketch.** By the operator. Those with one or two operands are known to go well, those with
many read every element, and no other operator is accepted by the type. -/
lemma stepNumber_eq (ht : t.isNumeric = true) (hlegal : o ∈ Operator.legal t)
    (hoperands : o.testsPresence = false) : stepNumber spec o = check (compileNumber spec t o) := by
  cases o
  case is | isNot =>
    simp only [stepNumber, compileNumber]
    cases checkArity spec _ .atLeastOne with
    | error e => rfl
    | ok => exact check_bind_pure _ _
  case greaterThan | lessThan =>
    simp only [stepNumber, compileNumber, stepOne_eq]
    exact check_bind_pure _ _
  case between =>
    simp only [stepNumber, compileNumber, stepTwo_eq]
    exact check_bind_pure _ _
  case isSet | isNotSet => cases hoperands
  all_goals cases t <;> cases ht <;> exact absurd hlegal (by decide)

/-- The steps for dates go well and are their compilation. -/
lemma stepDate_eq (hlegal : o ∈ Operator.legal .date) (hoperands : o.testsPresence = false) :
    stepDate spec o = check (compileDate spec o) := by
  cases o
  case before | after =>
    simp only [stepDate, compileDate, stepOne_eq]
    exact check_bind_pure _ _
  case between =>
    simp only [stepDate, compileDate, stepTwo_eq]
    exact check_bind_pure _ _
  case isSet | isNotSet => cases hoperands
  all_goals exact absurd hlegal (by decide)

/-- An operator that texts accept asks for a relation. -/
lemma exists_textRelation? (hlegal : o ∈ Operator.legal .string)
    (hoperands : o.testsPresence = false) :
    ∃ relation negated, o.textRelation? = some (relation, negated) := by
  cases o
  case isSet | isNotSet => cases hoperands
  case is | isNot | contains | notContains | startsWith | endsWith => exact ⟨_, _, rfl⟩
  all_goals exact absurd hlegal (by decide)

/-- If the type accepts the operator, then no step goes wrong, and the steps give the test of the
operator.

**Proof sketch.** The operators for presence need no operands. For the others the type chooses the
steps, and each of these goes well with the operators that the type accepts. -/
theorem stepTest_eq (hlegal : o ∈ Operator.legal t) :
    stepTest spec t o = check (compileTest spec t o) := by
  cases hoperands : o.testsPresence with
  | true => cases o <;> cases hoperands <;> rfl
  | false =>
    have hstep : stepTest spec t o = stepOperands spec t o := by
      cases o <;> first | rfl | cases hoperands
    rw [hstep]
    cases t with
    | string =>
      obtain ⟨relation, negated, hasks⟩ := exists_textRelation? hlegal hoperands
      exact compileTest_text hoperands ▸ stepText_eq hasks
    | number | duration =>
      rw [compileTest_numeric hoperands rfl]
      exact stepNumber_eq rfl hlegal hoperands
    | boolean => exact compileTest_boolean hoperands ▸ stepBoolean_eq
    | date => exact compileTest_date hoperands ▸ stepDate_eq hlegal hoperands

/-- No step of the checks of a constraint goes wrong.

**Proof sketch.** The two readers of words go well or are refused. Behind the check that the type
accepts the operator the steps of the test go well (`stepTest_eq`). -/
theorem stepCompile_eq (spec : Spec) : stepCompile spec = check (compile spec) := by
  unfold stepCompile compile
  cases readDataType spec.dataType with
  | error e => rfl
  | ok t =>
    cases readOperator spec.operator with
    | error e => rfl
    | ok o =>
      simp only [check_ok_bind]
      show (if _ then _ else _) = check (if _ then _ else _)
      split
      case isTrue hlegal =>
        rw [stepTest_eq hlegal]
        exact check_bind_pure _ _
      case isFalse => rfl

/-! ### Refusals -/

/-- A submitted constraint has a fault. A fault of the operands names the field. -/
inductive Spec.HasFault (spec : Spec) : ValidationFault → Prop
  /-- The type has no name that is known. -/
  | dataType (unknown : DataType.ofName? spec.dataType = none) :
      HasFault spec (.unknownDataType (Text.keyword spec.dataType))
  /-- The operator has no name that is known. -/
  | operator (unknown : Operator.ofName? spec.operator = none) :
      HasFault spec (.unknownOperator spec.operator)
  /-- The type does not accept the operator. -/
  | accepted {t : DataType} {o : Operator} (dataType : DataType.ofName? spec.dataType = some t)
      (operator : Operator.ofName? spec.operator = some o) (illegal : o ∉ Operator.legal t) :
      HasFault spec (.illegalOperator o t spec.field)
  /-- The operands are not as many as the operator takes. -/
  | count {t : DataType} {o : Operator} (dataType : DataType.ofName? spec.dataType = some t)
      (operator : Operator.ofName? spec.operator = some o)
      (wrong : (o.arity t).accepts spec.values.length = false) :
      HasFault spec (.wrongArity o spec.field (o.arity t) spec.values.length)
  /-- An operand is not a number. -/
  | number {v : Json} (operand : v ∈ spec.values) (unread : v.toNumber? = none) :
      HasFault spec (.notANumber v spec.field)
  /-- An operand is not a truth value. -/
  | boolean {v : Json} (operand : v ∈ spec.values) (unread : v.toBool? = none) :
      HasFault spec (.notABoolean v spec.field)
  /-- An operand is not an instant. -/
  | date {v : Json} (operand : v ∈ spec.values) (unread : v.toInstant? = none) :
      HasFault spec (.notADate v spec.field)
  /-- Bounds are not in order. -/
  | bounds {t : DataType} {v w : Json} (dataType : DataType.ofName? spec.dataType = some t)
      (operands : spec.values = [v, w]) (inverted : ¬ t.AtMost v w) :
      HasFault spec (.invertedBounds spec.field)

/-- Checks whose errors are faults with a property. -/
def Refuses (fault : ValidationFault → Prop) (x : Result α) : Prop :=
  ∀ e, x = .error e → ∃ f, e = .validation f ∧ fault f

namespace Refuses

variable {β : Type} {fault : ValidationFault → Prop}

/-- A check that is passed has no error. -/
lemma ok (a : α) : Refuses fault (.ok a) := by
  intro e h
  cases h

/-- A fault with the property may be reported. -/
lemma error {f : ValidationFault} (h : fault f) :
    Refuses fault (.error (.validation f) : Result α) := by
  rintro _ ⟨⟩
  exact ⟨f, rfl, h⟩

/-- Checks in a row report such faults if each of them does. -/
lemma bind {x : Result α} {f : α → Result β} (hx : Refuses fault x)
    (hf : ∀ a, x = .ok a → Refuses fault (f a)) : Refuses fault (x >>= f) := by
  cases x with
  | error e =>
    rintro _ ⟨⟩
    exact hx e rfl
  | ok a => exact hf a rfl

/-- What is made of the value afterwards does not matter. -/
lemma map {x : Result α} {f : α → β} (hx : Refuses fault x) :
    Refuses fault (x >>= fun a => pure (f a)) :=
  hx.bind fun a _ => ok (f a)

/-- Checks on all elements report such faults if the check on each does. -/
lemma mapM {f : α → Result β} {as : List α} (hf : ∀ a ∈ as, Refuses fault (f a)) :
    Refuses fault (as.mapM f) := by
  induction as with
  | nil => exact ok []
  | cons a as ih =>
    rw [List.mapM_cons]
    rw [List.forall_mem_cons] at hf
    exact hf.1.bind fun b _ => (ih hf.2).map

end Refuses

/-- Only an unknown data type is refused when it is read. -/
lemma refuses_readDataType : Refuses spec.HasFault (readDataType spec.dataType) := by
  unfold readDataType
  split
  case h_1 t _ => exact .ok t
  case h_2 hunknown => exact .error (.dataType hunknown)

/-- Only an unknown operator is refused when it is read. -/
lemma refuses_readOperator : Refuses spec.HasFault (readOperator spec.operator) := by
  unfold readOperator
  split
  case h_1 o _ => exact .ok o
  case h_2 hunknown => exact .error (.operator hunknown)

/-- Only a value that is not a number is refused as a number operand. -/
lemma refuses_numberOperand {v : Json} (hv : v ∈ spec.values) :
    Refuses spec.HasFault (numberOperand spec v) := by
  unfold numberOperand
  split
  case h_1 x _ => exact .ok x
  case h_2 hunread => exact .error (.number hv hunread)

/-- Only a value that is not a date is refused as a date operand. -/
lemma refuses_dateOperand {v : Json} (hv : v ∈ spec.values) :
    Refuses spec.HasFault (dateOperand spec v) := by
  unfold dateOperand
  split
  case h_1 a _ => exact .ok a
  case h_2 hunread => exact .error (.date hv hunread)

/-- Only a value that is not a truth value is refused as a truth operand. -/
lemma refuses_booleanOperand {v : Json} (hv : v ∈ spec.values) :
    Refuses spec.HasFault (booleanOperand spec v) := by
  unfold booleanOperand
  split
  case h_1 b _ => exact .ok b
  case h_2 hunread => exact .error (.boolean hv hunread)

section

variable (ht : DataType.ofName? spec.dataType = some t)
  (ho : Operator.ofName? spec.operator = some o)
include ht ho

/-- The operands are counted as the operator takes them. -/
lemma refuses_checkArity {wanted : Arity} (hwanted : o.arity t = wanted) :
    Refuses spec.HasFault (checkArity spec o wanted) := by
  subst hwanted
  unfold checkArity
  split
  case isTrue => exact .ok ()
  case isFalse hwrong => exact .error (.count ht ho (Bool.not_eq_true _ ▸ hwrong))

/-- One operand is refused with a fault of the constraint if reading it is. -/
lemma refuses_oneOperand {read : Json → Result α} (harity : o.arity t = .exactly 1)
    (hread : ∀ v ∈ spec.values, Refuses spec.HasFault (read v)) :
    Refuses spec.HasFault (oneOperand spec o read) := by
  unfold oneOperand
  split
  case h_1 v hv => exact hread v (hv ▸ List.mem_singleton_self v)
  case h_2 hnot =>
    have hwrong : (o.arity t).accepts spec.values.length = false := by
      rw [harity, ← Bool.not_eq_true, accepts_one]
      rintro ⟨v, hv⟩
      exact hnot v hv
    exact .error (harity ▸ .count ht ho hwrong)

/-- Two operands are refused with a fault of the constraint if reading them is and if only bounds
that are not in order count as inverted.

**Proof sketch.** With two operands each can be refused when it is read, and both if they are
inverted. Any other number is refused as a wrong number of operands. -/
lemma refuses_twoOperands {read : Json → Result α} {inverted : α → α → Bool}
    (harity : o.arity t = .exactly 2) (hread : ∀ v ∈ spec.values, Refuses spec.HasFault (read v))
    (hbounds : ∀ v w a b, read v = .ok a → read w = .ok b → inverted a b = true →
      ¬ t.AtMost v w) :
    Refuses spec.HasFault (twoOperands spec o read inverted) := by
  unfold twoOperands
  split
  case h_1 v w hvw =>
    have hv : v ∈ spec.values := by simp [hvw]
    have hw : w ∈ spec.values := by simp [hvw]
    refine (hread v hv).bind fun low hlow => (hread w hw).bind fun high hhigh => ?_
    split
    case isTrue hinverted => exact .error (.bounds ht hvw (hbounds v w _ _ hlow hhigh hinverted))
    case isFalse => exact .ok _
  case h_2 hnot =>
    have hwrong : (o.arity t).accepts spec.values.length = false := by
      rw [harity, ← Bool.not_eq_true, accepts_two]
      rintro ⟨v, w, hvw⟩
      exact hnot v w hvw
    exact .error (harity ▸ .count ht ho hwrong)

/-- What is refused for texts is a fault of the constraint. -/
lemma refuses_compileText (harity : o.arity t = .atLeastOne) {relation : TextRelation}
    {negated : Bool} (hasks : o.textRelation? = some (relation, negated)) :
    Refuses spec.HasFault (compileText spec o) := by
  refine (refuses_checkArity ht ho harity).bind fun _ _ => ?_
  cases o <;> cases hasks <;> exact .ok _

/-- What is refused for numbers is a fault of the constraint.

**Proof sketch.** By the operator. The number of operands, each operand and the order of the bounds
can be refused, and each of them is a fault. -/
lemma refuses_compileNumber (hnumeric : t.isNumeric = true) (hlegal : o ∈ Operator.legal t)
    (hoperands : o.testsPresence = false) : Refuses spec.HasFault (compileNumber spec t o) := by
  have hread : ∀ v ∈ spec.values, Refuses spec.HasFault (numberOperand spec v) :=
    fun _ => refuses_numberOperand
  cases o
  case is | isNot =>
    have harity := refuses_checkArity ht ho (by cases t <;> cases hnumeric <;> rfl)
    exact harity.bind fun _ _ => (Refuses.mapM hread).map
  case greaterThan | lessThan =>
    exact (refuses_oneOperand ht ho (by cases t <;> cases hnumeric <;> rfl) hread).map
  case between =>
    refine (refuses_twoOperands ht ho (by cases t <;> rfl) hread ?_).map
    intro v w x y hx hy hinverted hle
    rw [numberOperand_eq_ok] at hx hy
    cases hle with
    | numbers _ hlow hhigh hle =>
      cases hx.symm.trans hlow
      cases hy.symm.trans hhigh
      rw [(atMost_numbers_iff hlow hhigh).1 hle] at hinverted
      cases hinverted
    | dates => cases hnumeric
  case isSet | isNotSet => cases hoperands
  all_goals cases t <;> cases hnumeric <;> exact absurd hlegal (by decide)

end

/-- What is refused for truth values is a fault of the constraint. -/
lemma refuses_compileBoolean (ht : DataType.ofName? spec.dataType = some .boolean)
    (ho : Operator.ofName? spec.operator = some o) (hlegal : o ∈ Operator.legal .boolean) :
    Refuses spec.HasFault (compileBoolean spec o) := by
  have harity : o.arity .boolean = .exactly 1 := by
    cases o <;> first | rfl | exact absurd hlegal (by decide)
  exact (refuses_oneOperand ht ho harity fun _ => refuses_booleanOperand).map

/-- What is refused for dates is a fault of the constraint.

**Proof sketch.** By the operator. The number of operands, each operand and the order of the bounds
can be refused, and each of them is a fault. -/
lemma refuses_compileDate (ht : DataType.ofName? spec.dataType = some .date)
    (ho : Operator.ofName? spec.operator = some o) (hlegal : o ∈ Operator.legal .date)
    (hoperands : o.testsPresence = false) : Refuses spec.HasFault (compileDate spec o) := by
  have hread : ∀ v ∈ spec.values, Refuses spec.HasFault (dateOperand spec v) :=
    fun _ => refuses_dateOperand
  cases o
  case before | after => exact (refuses_oneOperand ht ho rfl hread).map
  case between =>
    refine (refuses_twoOperands ht ho rfl hread ?_).map
    intro v w a b ha hb hinverted hle
    rw [dateOperand_eq_ok] at ha hb
    cases hle with
    | numbers hnumeric => cases hnumeric
    | dates hlow hhigh hle =>
      cases ha.symm.trans hlow
      cases hb.symm.trans hhigh
      rw [hle] at hinverted
      cases hinverted
  case isSet | isNotSet => cases hoperands
  all_goals exact absurd hlegal (by decide)

/-- If the type accepts the operator, then operands are refused for a fault of theirs only.

**Proof sketch.** By the type, which chooses the function that compiles the operands. -/
lemma refuses_compileTest (ht : DataType.ofName? spec.dataType = some t)
    (ho : Operator.ofName? spec.operator = some o) (hlegal : o ∈ Operator.legal t) :
    Refuses spec.HasFault (compileTest spec t o) := by
  cases hoperands : o.testsPresence with
  | true => cases o <;> cases hoperands <;> exact .ok _
  | false =>
    cases t with
    | string =>
      obtain ⟨relation, negated, hasks⟩ := exists_textRelation? hlegal hoperands
      have harity : o.arity .string = .atLeastOne := by cases o <;> cases hasks <;> rfl
      exact compileTest_text hoperands ▸ refuses_compileText ht ho harity hasks
    | number | duration =>
      rw [compileTest_numeric hoperands rfl]
      exact refuses_compileNumber ht ho rfl hlegal hoperands
    | boolean =>
      exact compileTest_boolean hoperands ▸ refuses_compileBoolean ht ho hlegal
    | date => exact compileTest_date hoperands ▸ refuses_compileDate ht ho hlegal hoperands

/-- The error of a refusal is a fault that the constraint has. -/
theorem refuses_compile (spec : Spec) : Refuses spec.HasFault (compile spec) := by
  refine refuses_readDataType.bind fun t ht => refuses_readOperator.bind fun o ho => ?_
  rw [readDataType_eq_ok] at ht
  rw [readOperator_eq_ok] at ho
  split
  case isTrue hlegal => exact (refuses_compileTest ht ho hlegal).map
  case isFalse hillegal => exact .error (.accepted ht ho hillegal)

/-- The checks of a constraint accept the legal constraints and no others. Every refusal is a
validation error, and its fault is one that the constraint has; in particular, only an operator that
the type does not accept is called illegal. And no step of the checks goes wrong: no operand is
taken from behind the list, and the checks of a type do not come to an operator that the type does
not accept.

**Proof sketch.** If the type accepts the operator, then the operands that make a test are those
that suit the operator, and the checks of the type know what to do with it. The operands are counted
before they are taken from their places. -/
theorem compile_decides_legality (spec : Spec) :
    ((∃ c, compile spec = .ok c) ↔ ∃ t o, spec.Legal t o) ∧
      (∀ e, compile spec = .error e → ∃ fault, e = .validation fault ∧ spec.HasFault fault) ∧
      (∀ t o field, compile spec = .error (.validation (.illegalOperator o t field)) →
        o ∉ Operator.legal t) ∧
      (stepCompile spec).run = some (compile spec) := by
  refine ⟨exists_compile_iff_legal, refuses_compile spec, ?_, ?_⟩
  · intro t o field hrefused
    obtain ⟨fault, hfault, hcause⟩ := refuses_compile spec _ hrefused
    cases hfault
    cases hcause with
    | accepted _ _ hillegal => exact hillegal
  · rw [stepCompile_eq]
    rfl

/-- Bounds the wrong way round are refused for that, and a date is not found greater than another
one. -/
theorem inverted_refused :
    (∀ t o, ¬ Spec.Legal ⟨"age", "number", "between", [.number (.integer 30), .string "18"]⟩ t o) ∧
      Spec.HasFault ⟨"age", "number", "between", [.number (.integer 30), .string "18"]⟩
        (.invertedBounds "age") ∧
      Operator.greaterThan ∉ Operator.legal .date := by
  have hbounds : compile ⟨"age", "number", "between", [.number (.integer 30), .string "18"]⟩ =
      .error (.validation (.invertedBounds "age")) := by decide +kernel
  have hdate : compile ⟨"joined", "date", "greater_than", [.string "2024-01-01"]⟩ =
      .error (.validation (.illegalOperator .greaterThan .date "joined")) := by decide +kernel
  obtain ⟨haccepted, hfaults, -, -⟩ := compile_decides_legality
    ⟨"age", "number", "between", [.number (.integer 30), .string "18"]⟩
  obtain ⟨-, -, hillegal, -⟩ := compile_decides_legality
    ⟨"joined", "date", "greater_than", [.string "2024-01-01"]⟩
  obtain ⟨fault, hfault, hcause⟩ := hfaults _ hbounds
  cases hfault
  refine ⟨?_, hcause, hillegal _ _ _ hdate⟩
  intro t o hlegal
  obtain ⟨c, hc⟩ := haccepted.2 ⟨t, o, hlegal⟩
  cases hbounds.symm.trans hc

end Cohort.Constraint
