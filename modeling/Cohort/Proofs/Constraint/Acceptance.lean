import Mathlib.Tactic.Lemma
import Cohort.Constraint
import Cohort.Proofs.Result
set_option relaxedAutoImplicit false
set_option autoImplicit false

/-!
# Accepted constraints

A submitted constraint is accepted if the names of its type and its operator are known, the type
accepts the operator, and the operands make a test.

## Main definitions

* `Cohort.Operator.textRelation?` — what an operator asks of texts.

## Main results

* `Cohort.Constraint.compile_eq_ok` — the constraints that are accepted.
* `Cohort.Constraint.compileText_eq_ok` — the tests of texts that operands make.
-/

namespace Cohort

open Result

namespace Operator

/-- How an operator compares texts, and whether it asks that no needle has the relation. -/
def textRelation? : Operator → Option (Constraint.TextRelation × Bool)
  | .is => some (.is, false)
  | .isNot => some (.is, true)
  | .contains => some (.contains, false)
  | .notContains => some (.contains, true)
  | .startsWith => some (.startsWith, false)
  | .endsWith => some (.endsWith, false)
  | _ => none

end Operator

namespace Constraint

variable {spec : Spec} {c : Constraint} {test : Test} {o : Operator} {t : DataType}

/-! ### The checks -/

/-- A word is read as a data type if it is the name of one. -/
lemma readDataType_eq_ok {word : String} :
    readDataType word = .ok t ↔ DataType.ofName? word = some t := by
  unfold readDataType
  split
  case h_1 found hfound => simp [hfound]
  case h_2 hnone => simp [hnone]

/-- A word is read as an operator if it is the name of one. -/
lemma readOperator_eq_ok {word : String} :
    readOperator word = .ok o ↔ Operator.ofName? word = some o := by
  unfold readOperator
  split
  case h_1 found hfound => simp [hfound]
  case h_2 hnone => simp [hnone]

/-- A submitted constraint is accepted if its type and its operator have names that are known, the
type accepts the operator, and the operands make a test.

**Proof sketch.** Compilation goes through the checks one after the other, and each is passed under
one of the conditions. -/
theorem compile_eq_ok :
    compile spec = .ok c ↔
      DataType.ofName? spec.dataType = some c.dataType ∧
        Operator.ofName? spec.operator = some c.operator ∧
        c.operator ∈ Operator.legal c.dataType ∧
        compileTest spec c.dataType c.operator = .ok c.test ∧ c.field = spec.field := by
  unfold compile
  simp only [bind_eq_ok, readDataType_eq_ok, readOperator_eq_ok]
  constructor
  · rintro ⟨t, ht, o, ho, h⟩
    split at h
    case isTrue hlegal =>
      simp only [bind_eq_ok, pure_eq_ok] at h
      obtain ⟨test, htest, rfl⟩ := h
      exact ⟨ht, ho, hlegal, htest, rfl⟩
    case isFalse => cases h
  · rintro ⟨ht, ho, hlegal, htest, hfield⟩
    refine ⟨c.dataType, ht, c.operator, ho, ?_⟩
    rw [if_pos hlegal, htest, ← hfield]
    rfl

/-- Whether a submitted constraint is accepted. -/
lemma exists_compile_iff :
    (∃ c, compile spec = .ok c) ↔ ∃ t o, DataType.ofName? spec.dataType = some t ∧
      Operator.ofName? spec.operator = some o ∧ o ∈ Operator.legal t ∧
        ∃ test, compileTest spec t o = .ok test := by
  constructor
  · rintro ⟨c, hc⟩
    obtain ⟨ht, ho, hlegal, htest, -⟩ := compile_eq_ok.1 hc
    exact ⟨_, _, ht, ho, hlegal, _, htest⟩
  · rintro ⟨t, o, ht, ho, hlegal, test, htest⟩
    exact ⟨⟨spec.field, t, o, test⟩, compile_eq_ok.2 ⟨ht, ho, hlegal, htest, rfl⟩⟩

/-- The name of the operator does not matter for the test. -/
lemma compileTest_operator (word : String) :
    compileTest { spec with operator := word } t o = compileTest spec t o := rfl

/-! ### The operands -/

/-- Several operands are allowed, but not none. -/
lemma checkArity_bind_eq_ok {x : Result Test} :
    (checkArity spec o .atLeastOne >>= fun _ => x) = .ok test ↔
      spec.values ≠ [] ∧ x = .ok test := by
  unfold checkArity Arity.accepts
  cases spec.values with
  | nil => simp
  | cons v vs => simp

/-- Operands make a test of a text if there are any and the operator compares texts. -/
lemma compileText_eq_ok :
    compileText spec o = .ok test ↔ spec.values ≠ [] ∧ ∃ relation negated,
      o.textRelation? = some (relation, negated) ∧
        .text relation negated (spec.values.map fun v => Text.lowercase v.toText) = test := by
  unfold compileText
  rw [checkArity_bind_eq_ok]
  refine and_congr_right fun _ => ?_
  cases o <;> simp [Operator.textRelation?, illegal]

end Constraint

end Cohort
