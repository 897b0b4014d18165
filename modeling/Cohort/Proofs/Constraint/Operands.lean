import Cohort.Proofs.Constraint.Acceptance
set_option relaxedAutoImplicit false
set_option autoImplicit false

/-!
# The tests that operands make

Each type reads its operands in its own way, and each of its operators takes its own number of them.
What comes out is a test. Here is said which one, type by type, without the checks in between: an
operator that the type accepts makes a test of its operands if and only if they are as many as it
takes, can be read as the type and are in order.

## Main definitions

* `Cohort.Operator.testsPresence` — the operators that take no notice of their operands.
* `Cohort.Constraint.Makes` — the test that an operator makes of operands of a type.

## Main results

* `Cohort.Constraint.compileTest_eq_ok` — compilation gives the test that the operands make.
* `Cohort.Constraint.compile_eq_ok_iff_makes` — the constraints that are accepted.
-/

namespace Cohort

open Result

/-- Whether an operator only asks whether there is a value. It takes no notice of its operands. -/
def Operator.testsPresence : Operator → Bool
  | .isSet | .isNotSet => true
  | _ => false

namespace Constraint

/-- An operator of a type makes a test of operands. -/
inductive Makes : DataType → Operator → List Json → Test → Prop
  /-- Whether there is a value; operands do not matter. -/
  | isSet {t : DataType} {vs : List Json} : Makes t .isSet vs .isSet
  /-- Whether there is none. -/
  | isNotSet {t : DataType} {vs : List Json} : Makes t .isNotSet vs .isNotSet
  /-- Texts are compared in lower case. -/
  | text {o : Operator} {relation : TextRelation} {negated : Bool} {vs : List Json}
      (asks : o.textRelation? = some (relation, negated)) (several : vs ≠ []) :
      Makes .string o vs (.text relation negated (vs.map fun v => Text.lowercase v.toText))
  /-- A number is looked for among others. -/
  | oneOf {t : DataType} {vs : List Json} {xs : List Float} (numeric : t.isNumeric = true)
      (several : vs ≠ []) (read : List.Forall₂ (fun v x => v.toNumber? = some x) vs xs) :
      Makes t .is vs (.number (.is xs))
  /-- A number is to be none of others. -/
  | noneOf {t : DataType} {vs : List Json} {xs : List Float} (numeric : t.isNumeric = true)
      (several : vs ≠ []) (read : List.Forall₂ (fun v x => v.toNumber? = some x) vs xs) :
      Makes t .isNot vs (.number (.isNot xs))
  /-- A number is to be above another one. -/
  | above {t : DataType} {v : Json} {x : Float} (numeric : t.isNumeric = true)
      (read : v.toNumber? = some x) : Makes t .greaterThan [v] (.number (.above x))
  /-- A number is to be below another one. -/
  | below {t : DataType} {v : Json} {x : Float} (numeric : t.isNumeric = true)
      (read : v.toNumber? = some x) : Makes t .lessThan [v] (.number (.below x))
  /-- A number is to lie between two others. -/
  | between {t : DataType} {v w : Json} {x y : Float} (numeric : t.isNumeric = true)
      (low : v.toNumber? = some x) (high : w.toNumber? = some y)
      (inOrder : Decimal.below y x = false) : Makes t .between [v, w] (.number (.between x y))
  /-- A truth value is expected, or the other one. -/
  | boolean {o : Operator} {negated : Bool} {v : Json} {b : Bool}
      (asks : o.textRelation? = some (.is, negated)) (read : v.toBool? = some b) :
      Makes .boolean o [v] (.boolean b negated)
  /-- An instant is to come before another one. -/
  | before {v : Json} {a : Instant} (read : v.toInstant? = some a) :
      Makes .date .before [v] (.date (.before a))
  /-- An instant is to come after another one. -/
  | after {v : Json} {a : Instant} (read : v.toInstant? = some a) :
      Makes .date .after [v] (.date (.after a))
  /-- An instant is to lie between two others. -/
  | period {v w : Json} {a b : Instant} (low : v.toInstant? = some a)
      (high : w.toInstant? = some b) (inOrder : b.before a = false) :
      Makes .date .between [v, w] (.date (.between a b))

variable {spec : Spec} {c : Constraint} {test : Test} {o : Operator} {t : DataType} {v : Json}

/-! ### Reading operands -/

/-- An operand is taken as a number if the value can be read as one. -/
lemma numberOperand_eq_ok {x : Float} : numberOperand spec v = .ok x ↔ v.toNumber? = some x := by
  unfold numberOperand
  cases v.toNumber? <;> simp

/-- An operand is taken as an instant if the value can be read as one. -/
lemma dateOperand_eq_ok {a : Instant} : dateOperand spec v = .ok a ↔ v.toInstant? = some a := by
  unfold dateOperand
  cases v.toInstant? <;> simp

/-- An operand is taken as a truth value if the value can be read as one. -/
lemma booleanOperand_eq_ok {b : Bool} : booleanOperand spec v = .ok b ↔ v.toBool? = some b := by
  unfold booleanOperand
  cases v.toBool? <;> simp

section

variable {α : Type} {read : Json → Result α}

/-- One operand is read if there is no other one. -/
lemma oneOperand_eq_ok {a : α} :
    oneOperand spec o read = .ok a ↔ ∃ v, spec.values = [v] ∧ read v = .ok a := by
  unfold oneOperand
  split
  case h_1 v hv => simp [hv]
  case h_2 hnot =>
    constructor
    · intro h
      cases h
    · rintro ⟨v, hv, -⟩
      exact absurd hv (hnot v)

/-- Two operands are read if there are no others, and refused if they are not in order.

**Proof sketch.** The function looks whether there are exactly two values. If there are, it reads
the first, then the second, and then holds them against one another. -/
lemma twoOperands_eq_ok {inverted : α → α → Bool} {a b : α} :
    twoOperands spec o read inverted = .ok (a, b) ↔ ∃ v w, spec.values = [v, w] ∧
      read v = .ok a ∧ read w = .ok b ∧ inverted a b = false := by
  unfold twoOperands
  split
  case h_1 v w hvw =>
    simp only [bind_eq_ok, guard_eq_ok, pure_eq_ok, hvw, List.cons.injEq, and_true,
      Bool.not_eq_true, Prod.mk.injEq]
    constructor
    · rintro ⟨a', ha, b', hb, hordered, rfl, rfl⟩
      exact ⟨v, w, ⟨rfl, rfl⟩, ha, hb, hordered⟩
    · rintro ⟨v', w', ⟨rfl, rfl⟩, ha, hb, hordered⟩
      exact ⟨a, ha, b, hb, hordered, rfl, rfl⟩
  case h_2 hnot =>
    constructor
    · intro h
      cases h
    · rintro ⟨v, w, hvw, -⟩
      exact absurd hvw (hnot v w)

end

/-! ### Types -/

/-- What is compiled for texts is a test that the values make. -/
lemma makes_of_compileText (h : compileText spec o = .ok test) :
    Makes .string o spec.values test := by
  obtain ⟨hsome, relation, negated, hasks, rfl⟩ := compileText_eq_ok.1 h
  exact .text hasks hsome

/-- Numbers make a test for an operator of numbers, and for no other one.

**Proof sketch.** By the operator. Each is compiled in steps, whose results are the parts of one way
to make a test. -/
lemma makes_of_compileNumber (ht : t.isNumeric = true) (h : compileNumber spec t o = .ok test) :
    Makes t o spec.values test := by
  cases o <;> simp only [compileNumber] at h
  case is =>
    obtain ⟨hsome, h⟩ := checkArity_bind_eq_ok.1 h
    simp only [bind_eq_ok, mapM_eq_ok, numberOperand_eq_ok, pure_eq_ok] at h
    obtain ⟨xs, hread, rfl⟩ := h
    exact .oneOf ht hsome hread
  case isNot =>
    obtain ⟨hsome, h⟩ := checkArity_bind_eq_ok.1 h
    simp only [bind_eq_ok, mapM_eq_ok, numberOperand_eq_ok, pure_eq_ok] at h
    obtain ⟨xs, hread, rfl⟩ := h
    exact .noneOf ht hsome hread
  case greaterThan =>
    simp only [bind_eq_ok, oneOperand_eq_ok, numberOperand_eq_ok, pure_eq_ok] at h
    obtain ⟨x, ⟨v, hvalues, hread⟩, rfl⟩ := h
    rw [hvalues]
    exact .above ht hread
  case lessThan =>
    simp only [bind_eq_ok, oneOperand_eq_ok, numberOperand_eq_ok, pure_eq_ok] at h
    obtain ⟨x, ⟨v, hvalues, hread⟩, rfl⟩ := h
    rw [hvalues]
    exact .below ht hread
  case between =>
    simp only [bind_eq_ok, Prod.exists, twoOperands_eq_ok, numberOperand_eq_ok, pure_eq_ok] at h
    obtain ⟨x, y, ⟨v, w, hvalues, hlow, hhigh, hordered⟩, rfl⟩ := h
    rw [hvalues]
    exact .between ht hlow hhigh hordered
  all_goals cases h

/-- Instants make a test for an operator of dates, and for no other one.

**Proof sketch.** By the operator. Each is compiled in steps, whose results are the parts of one way
to make a test. -/
lemma makes_of_compileDate (h : compileDate spec o = .ok test) :
    Makes .date o spec.values test := by
  cases o <;> simp only [compileDate] at h
  case before =>
    simp only [bind_eq_ok, oneOperand_eq_ok, dateOperand_eq_ok, pure_eq_ok] at h
    obtain ⟨a, ⟨v, hvalues, hread⟩, rfl⟩ := h
    rw [hvalues]
    exact .before hread
  case after =>
    simp only [bind_eq_ok, oneOperand_eq_ok, dateOperand_eq_ok, pure_eq_ok] at h
    obtain ⟨a, ⟨v, hvalues, hread⟩, rfl⟩ := h
    rw [hvalues]
    exact .after hread
  case between =>
    simp only [bind_eq_ok, Prod.exists, twoOperands_eq_ok, dateOperand_eq_ok, pure_eq_ok] at h
    obtain ⟨a, b, ⟨v, w, hvalues, hlow, hhigh, hordered⟩, rfl⟩ := h
    rw [hvalues]
    exact .period hlow hhigh hordered
  all_goals cases h

/-- A truth value makes a test for an operator that asks for it, or for the other one. -/
lemma makes_of_compileBoolean {negated : Bool} (hasks : o.textRelation? = some (.is, negated))
    (h : compileBoolean spec o = .ok test) : Makes .boolean o spec.values test := by
  simp only [compileBoolean, bind_eq_ok, oneOperand_eq_ok, booleanOperand_eq_ok, pure_eq_ok] at h
  obtain ⟨b, ⟨v, hvalues, hread⟩, rfl⟩ := h
  rw [hvalues]
  cases o <;> cases hasks
  case is => exact .boolean rfl hread
  case isNot => exact .boolean rfl hread

/-! ### All types together -/

section

variable (hoperands : o.testsPresence = false)
include hoperands

/-- Texts are compiled by their own function. -/
lemma compileTest_text : compileTest spec .string o = compileText spec o := by
  cases o <;> first | rfl | cases hoperands

/-- Numbers and durations are compiled by one function. -/
lemma compileTest_numeric (ht : t.isNumeric = true) :
    compileTest spec t o = compileNumber spec t o := by
  cases t <;> cases ht <;> cases o <;> first | rfl | cases hoperands

/-- Truth values are compiled by their own function. -/
lemma compileTest_boolean : compileTest spec .boolean o = compileBoolean spec o := by
  cases o <;> first | rfl | cases hoperands

/-- Dates are compiled by their own function. -/
lemma compileTest_date : compileTest spec .date o = compileDate spec o := by
  cases o <;> first | rfl | cases hoperands

end

/-- An operator that relates texts does not ask whether there is a value. -/
lemma testsPresence_of_asks {relation : TextRelation} {negated : Bool}
    (hasks : o.textRelation? = some (relation, negated)) : o.testsPresence = false := by
  cases o <;> first | rfl | cases hasks

/-- Operands that make a test are accepted, and compilation gives the test.

**Proof sketch.** By the way in which the test is made: it names the function that compiles the
operator, and its parts are what the steps of this function ask for. -/
lemma Makes.compileTest_eq_ok (h : Makes t o spec.values test) :
    compileTest spec t o = .ok test := by
  generalize hvalues : spec.values = vs at h
  cases h with
  | isSet | isNotSet => rfl
  | text hasks hsome =>
    rw [compileTest_text (testsPresence_of_asks hasks), compileText_eq_ok, hvalues]
    exact ⟨hsome, _, _, hasks, rfl⟩
  | oneOf hnumeric hsome hread | noneOf hnumeric hsome hread =>
    rw [compileTest_numeric rfl hnumeric]
    refine checkArity_bind_eq_ok.2 ⟨hvalues ▸ hsome, ?_⟩
    simp only [bind_eq_ok, mapM_eq_ok, numberOperand_eq_ok, pure_eq_ok]
    exact ⟨_, hvalues ▸ hread, rfl⟩
  | above hnumeric hread =>
    rw [compileTest_numeric rfl hnumeric]
    simp only [compileNumber, bind_eq_ok, oneOperand_eq_ok, numberOperand_eq_ok, pure_eq_ok]
    exact ⟨_, ⟨_, hvalues, hread⟩, rfl⟩
  | below hnumeric hread =>
    rw [compileTest_numeric rfl hnumeric]
    simp only [compileNumber, bind_eq_ok, oneOperand_eq_ok, numberOperand_eq_ok, pure_eq_ok]
    exact ⟨_, ⟨_, hvalues, hread⟩, rfl⟩
  | between hnumeric hlow hhigh hordered =>
    rw [compileTest_numeric rfl hnumeric]
    simp only [compileNumber, bind_eq_ok, Prod.exists, twoOperands_eq_ok, numberOperand_eq_ok,
      pure_eq_ok]
    exact ⟨_, _, ⟨_, _, hvalues, hlow, hhigh, hordered⟩, rfl⟩
  | @boolean o negated _ b hasks hread =>
    have hnegated : decide (o = .isNot) = negated := by
      cases o <;> cases hasks <;> rfl
    rw [compileTest_boolean (testsPresence_of_asks hasks)]
    simp only [compileBoolean, bind_eq_ok, oneOperand_eq_ok, booleanOperand_eq_ok, pure_eq_ok,
      hnegated]
    exact ⟨_, ⟨_, hvalues, hread⟩, rfl⟩
  | before hread =>
    rw [compileTest_date rfl]
    simp only [compileDate, bind_eq_ok, oneOperand_eq_ok, dateOperand_eq_ok, pure_eq_ok]
    exact ⟨_, ⟨_, hvalues, hread⟩, rfl⟩
  | after hread =>
    rw [compileTest_date rfl]
    simp only [compileDate, bind_eq_ok, oneOperand_eq_ok, dateOperand_eq_ok, pure_eq_ok]
    exact ⟨_, ⟨_, hvalues, hread⟩, rfl⟩
  | period hlow hhigh hordered =>
    rw [compileTest_date rfl]
    simp only [compileDate, bind_eq_ok, Prod.exists, twoOperands_eq_ok, dateOperand_eq_ok,
      pure_eq_ok]
    exact ⟨_, _, ⟨_, _, hvalues, hlow, hhigh, hordered⟩, rfl⟩

/-- Of operands of an operator that the type accepts, compilation makes the test that the operands
make, and it refuses operands that make none.

**Proof sketch.** In one direction by the type, which chooses the function, and each function makes
its test in one of the ways. The other direction is `Makes.compileTest_eq_ok`. -/
theorem compileTest_eq_ok (hlegal : o ∈ Operator.legal t) :
    compileTest spec t o = .ok test ↔ Makes t o spec.values test := by
  constructor
  · intro h
    cases hoperands : o.testsPresence with
    | true =>
      cases o <;> cases hoperands <;> cases h
      · exact .isSet
      · exact .isNotSet
    | false =>
      cases t with
      | string => exact makes_of_compileText (compileTest_text hoperands ▸ h)
      | number | duration =>
        rw [compileTest_numeric hoperands rfl] at h
        exact makes_of_compileNumber rfl h
      | boolean =>
        rw [compileTest_boolean hoperands] at h
        cases o <;> try exact absurd hlegal (by decide)
        case is => exact makes_of_compileBoolean rfl h
        case isNot => exact makes_of_compileBoolean rfl h
      | date => exact makes_of_compileDate (compileTest_date hoperands ▸ h)
  · exact Makes.compileTest_eq_ok

/-- A submitted constraint is accepted if and only if its type and its operator have names that are
known, the type accepts the operator, and the operands make a test. -/
theorem compile_eq_ok_iff_makes :
    compile spec = .ok c ↔
      DataType.ofName? spec.dataType = some c.dataType ∧
        Operator.ofName? spec.operator = some c.operator ∧
        c.operator ∈ Operator.legal c.dataType ∧
        Makes c.dataType c.operator spec.values c.test ∧ c.field = spec.field := by
  rw [compile_eq_ok]
  refine and_congr_right fun _ => and_congr_right fun _ => and_congr_right fun hlegal => ?_
  rw [compileTest_eq_ok hlegal]

/-- Whether a submitted constraint is accepted, once its type and its operator are known. -/
lemma exists_compile_iff_makes (ht : DataType.ofName? spec.dataType = some t)
    (ho : Operator.ofName? spec.operator = some o) :
    (∃ c, compile spec = .ok c) ↔
      o ∈ Operator.legal t ∧ ∃ test, Makes t o spec.values test := by
  simp only [exists_compile_iff, ht, ho, Option.some.injEq, exists_and_left, exists_eq_left']
  refine and_congr_right fun hlegal => exists_congr fun test => ?_
  exact compileTest_eq_ok hlegal

/-- The operands of a constraint that is accepted make its test. -/
lemma makes_of_compile (hc : compile spec = .ok c) (ht : DataType.ofName? spec.dataType = some t)
    (ho : Operator.ofName? spec.operator = some o) : Makes t o spec.values c.test := by
  obtain ⟨hdataType, hoperator, -, hmakes, -⟩ := compile_eq_ok_iff_makes.1 hc
  rwa [Option.some.inj (ht.symm.trans hdataType), Option.some.inj (ho.symm.trans hoperator)]

/-! ### Values of the field -/

/-- An absent value is judged by what the test says of absent ones. -/
lemma accepts_of_absent {candidate : Option Json} (h : Json.isAbsent candidate = true) :
    c.accepts candidate = c.test.acceptsAbsent := by
  cases candidate with
  | none => rfl
  | some held => rw [accepts, if_pos h]

/-- A present value is judged by what the test says of it. -/
lemma accepts_of_present {held : Json} (h : Json.isAbsent (some held) = false) :
    c.accepts (some held) = c.test.acceptsPresent held := by
  rw [accepts, if_neg (Bool.eq_false_iff.1 h)]

/-- What is not there passes the test of a negated operator, and of no other one. -/
lemma Makes.acceptsAbsent_eq {vs : List Json} (h : Makes t o vs test)
    (hoperands : o.testsPresence = false) :
    test.acceptsAbsent = (o.textRelation?.map Prod.snd).getD false := by
  cases h with
  | isSet | isNotSet => cases hoperands
  | text hasks | boolean hasks =>
    rw [hasks]
    rfl
  | oneOf | noneOf | above | below | between | before | after | period => rfl

/-- A candidate that is not absent is a value. -/
lemma exists_of_present {candidate : Option Json} (h : Json.isAbsent candidate = false) :
    ∃ held, candidate = some held := by
  cases candidate with
  | none => cases h
  | some held => exact ⟨held, rfl⟩

end Constraint

end Cohort
