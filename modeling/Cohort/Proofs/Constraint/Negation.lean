import Cohort.Proofs.Constraint.Acceptance
set_option relaxedAutoImplicit false
set_option autoImplicit false

/-!
# Negated operators

Three operators have a negation: `is`, `contains` and `is_set`. A type accepts the negation of an
operator if it accepts the operator, and operands make a test for the one if they make a test for
the other. The two tests are opposite: whatever the value of the field is, and also if there is none
or one of another type, one of them is passed and the other one is not.

## Main definitions

* `Cohort.Operator.negation?` — the negation of an operator.
* `Cohort.Constraint.Test.Opposes` — a test and the opposite one.

## Main results

* `Cohort.Constraint.opposite_compileTest` — operands make opposite tests or none.
* `Cohort.Constraint.compile_negation` — a constraint and its negation are exact complements.
-/

namespace Cohort

open Result

namespace Operator

/-- The operator that asks the opposite of another one. -/
def negation? : Operator → Option Operator
  | .is => some .isNot
  | .contains => some .notContains
  | .isSet => some .isNotSet
  | _ => none

/-- A type accepts the negation of an operator if it accepts the operator. -/
lemma mem_legal_negation {o o' : Operator} (h : o.negation? = some o') (t : DataType) :
    o' ∈ legal t ↔ o ∈ legal t := by
  cases o <;> cases h <;> cases t <;> decide

end Operator

namespace Constraint

variable {spec : Spec} {c : Constraint} {test test' : Test} {o o' : Operator} {t : DataType}

/-! ### Opposite tests -/

/-- A test, and the one that asks the opposite. -/
inductive Test.Opposes : Test → Test → Prop
  /-- There is a value, or there is none. -/
  | presence : Opposes .isSet .isNotSet
  /-- The text has the relation to a needle, or to none. -/
  | text (relation : TextRelation) (needles : List String) :
      Opposes (.text relation false needles) (.text relation true needles)
  /-- The number is one of the operands, or none of them. -/
  | number (operands : List Float) :
      Opposes (.number (.is operands)) (.number (.isNot operands))
  /-- The truth value is the expected one, or it is not. -/
  | boolean (expected : Bool) : Opposes (.boolean expected false) (.boolean expected true)

namespace Test.Opposes

/-- What is not there passes one of two opposite tests. -/
lemma acceptsAbsent (h : test.Opposes test') : test'.acceptsAbsent = !test.acceptsAbsent := by
  cases h <;> rfl

/-- A value passes one of two opposite tests, whether it can be read as the type or not. -/
lemma acceptsPresent (h : test.Opposes test') (v : Json) :
    test'.acceptsPresent v = !test.acceptsPresent v := by
  cases h with
  | presence => rfl
  | text relation needles => simp [Test.acceptsPresent]
  | number operands =>
    unfold Test.acceptsPresent
    cases v.toNumber? with
    | none => rfl
    | some x => exact NumberTest.accepts_isNot operands x
  | boolean expected =>
    unfold Test.acceptsPresent
    cases v.toBool? with
    | none => rfl
    | some b => simp

end Test.Opposes

/-- Two constraints with opposite tests are passed by opposite values. -/
lemma accepts_of_opposes {c' : Constraint} (h : c.test.Opposes c'.test) (candidate : Option Json) :
    c'.accepts candidate = !c.accepts candidate := by
  cases candidate with
  | none => exact h.acceptsAbsent
  | some v =>
    by_cases habsent : Json.isAbsent (some v) = true
    · simp only [accepts, if_pos habsent]
      exact h.acceptsAbsent
    · simp only [accepts, if_neg habsent]
      exact h.acceptsPresent v

/-! ### Opposite constraints -/

/-- Operands make two opposite tests, or they are refused both times. -/
inductive Opposite : Result Test → Result Test → Prop
  /-- Both tests are made. -/
  | accepted {test test' : Test} (h : test.Opposes test') : Opposite (.ok test) (.ok test')
  /-- Neither test is made. -/
  | refused (e e' : Error) : Opposite (.error e) (.error e')

namespace Opposite

variable {x x' : Result Test}

/-- One test is made if and only if the opposite one is. -/
lemma exists_ok_iff (h : Opposite x x') : (∃ test, x = .ok test) ↔ ∃ test', x' = .ok test' := by
  cases h with
  | accepted h => exact ⟨fun _ => ⟨_, rfl⟩, fun _ => ⟨_, rfl⟩⟩
  | refused e e' => simp

/-- Tests that are made are opposite. -/
lemma opposes (h : Opposite x x') (hx : x = .ok test) (hx' : x' = .ok test') :
    test.Opposes test' := by
  cases h with
  | accepted h =>
    cases hx
    cases hx'
    exact h
  | refused e e' => cases hx

end Opposite

/-- A check is passed for both operators or for neither of them. -/
lemma opposite_checkArity {x x' : Result Test} (h : Opposite x x') :
    Opposite (checkArity spec o .atLeastOne >>= fun _ => x)
      (checkArity spec o' .atLeastOne >>= fun _ => x') := by
  unfold checkArity
  split
  case isTrue => exact h
  case isFalse => exact .refused _ _

/-- Texts are compared with the operands, or with none of them. -/
lemma opposite_compileText (h : o.negation? = some o') (hlegal : o ∈ Operator.legal .string)
    (hset : o ≠ .isSet) : Opposite (compileText spec o) (compileText spec o') := by
  cases o <;> cases h
  case is => exact opposite_checkArity (.accepted (.text .is _))
  case contains => exact opposite_checkArity (.accepted (.text .contains _))
  case isSet => exact absurd rfl hset

/-- Numbers are compared with the operands, or with none of them. -/
lemma opposite_compileNumber :
    Opposite (compileNumber spec t .is) (compileNumber spec t .isNot) := by
  apply opposite_checkArity
  cases spec.values.mapM (numberOperand spec) with
  | ok operands => exact .accepted (.number operands)
  | error e => exact .refused e e

/-- A truth value is expected, or it is not. -/
lemma opposite_compileBoolean :
    Opposite (compileBoolean spec .is) (compileBoolean spec .isNot) := by
  unfold compileBoolean oneOperand
  split
  case h_1 v _ =>
    cases booleanOperand spec v with
    | ok expected => exact .accepted (.boolean expected)
    | error e => exact .refused e e
  case h_2 => exact .refused _ _

/-- For an operator that the type accepts and for its negation, operands make opposite tests or
none. -/
theorem opposite_compileTest (h : o.negation? = some o') (hlegal : o ∈ Operator.legal t) :
    Opposite (compileTest spec t o) (compileTest spec t o') := by
  cases o <;> cases h
  case is =>
    cases t with
    | string => exact opposite_compileText rfl hlegal nofun
    | number => exact opposite_compileNumber (t := .number)
    | duration => exact opposite_compileNumber (t := .duration)
    | boolean => exact opposite_compileBoolean
    | date => exact absurd hlegal (by decide)
  case contains =>
    cases t with
    | string => exact opposite_compileText rfl hlegal nofun
    | number | duration | boolean | date => exact absurd hlegal (by decide)
  case isSet => exact .accepted .presence

/-- A constraint and its negation. One is accepted if and only if the other one is, whatever the
type and the operands are; and then they test the same field as the same type, and every value,
missing or not and of any type, passes exactly one of them.

**Proof sketch.** The type accepts both operators or neither of them, and the operands make opposite
tests or none. -/
theorem compile_negation (spec : Spec) {word word' : String} (h : o.negation? = some o')
    (hword : Operator.ofName? word = some o) (hword' : Operator.ofName? word' = some o') :
    ((∃ c, compile { spec with operator := word } = .ok c) ↔
        ∃ c', compile { spec with operator := word' } = .ok c') ∧
      ∀ c c', compile { spec with operator := word } = .ok c →
        compile { spec with operator := word' } = .ok c' →
          c.field = spec.field ∧ c'.field = spec.field ∧ c.dataType = c'.dataType ∧
            ∀ candidate, c'.accepts candidate = !c.accepts candidate := by
  have hopposite : ∀ t, o ∈ Operator.legal t → Opposite
      (compileTest { spec with operator := word } t o)
      (compileTest { spec with operator := word' } t o') := by
    intro t hlegal
    rw [compileTest_operator, compileTest_operator]
    exact opposite_compileTest h hlegal
  constructor
  · simp only [exists_compile_iff, hword, hword', Option.some.injEq, exists_and_left,
      exists_eq_left', Operator.mem_legal_negation h]
    refine exists_congr fun t => and_congr_right fun _ => and_congr_right fun hlegal => ?_
    exact (hopposite t hlegal).exists_ok_iff
  · intro c c' hc hc'
    obtain ⟨ht, ho, hlegal, htest, hfield⟩ := compile_eq_ok.1 hc
    obtain ⟨ht', ho', -, htest', hfield'⟩ := compile_eq_ok.1 hc'
    have htype : c.dataType = c'.dataType := Option.some.inj (ht.symm.trans ht')
    rw [← Option.some.inj (hword.symm.trans ho)] at hlegal htest
    rw [← Option.some.inj (hword'.symm.trans ho'), ← htype] at htest'
    exact ⟨hfield, hfield', htype, accepts_of_opposes ((hopposite _ hlegal).opposes htest htest')⟩

/-- Whoever has no plan is not on the free one. -/
theorem free_negation :
    ∃ c c', compile ⟨"plan", "string", "is", [.string "free"]⟩ = .ok c ∧
      compile ⟨"plan", "string", " is_not ", [.string "free"]⟩ = .ok c' ∧
        c.accepts none = false ∧ c'.accepts none = true ∧
        c'.accepts (some (.string "FREE")) = !c.accepts (some (.string "FREE")) := by
  obtain ⟨haccepted, hcomplement⟩ :=
    compile_negation (o := .is) ⟨"plan", "string", "is", [.string "free"]⟩ rfl
      (by decide : Operator.ofName? "is" = some .is)
      (by decide : Operator.ofName? " is_not " = some .isNot)
  have hc : compile ⟨"plan", "string", "is", [.string "free"]⟩ =
      .ok ⟨"plan", .string, .is, .text .is false ["free"]⟩ := by decide +kernel
  obtain ⟨c', hc'⟩ := haccepted.1 ⟨_, hc⟩
  obtain ⟨-, -, -, hvalues⟩ := hcomplement _ c' hc hc'
  exact ⟨_, c', hc, hc', rfl, hvalues none, hvalues _⟩

end Constraint

end Cohort
