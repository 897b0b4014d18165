import Cohort.Aggregate.Basic
import Cohort.Field
set_option autoImplicit false

/-!
# Computed fields

A computed field is an attribute of profiles that is not stored: an aggregate of the events, or a
formula over other attributes.

## Main definitions

* `Cohort.ComputedField.Spec` — a computed field as it is submitted.
* `Cohort.ComputedField` — a computed field that was accepted.
* `Cohort.ComputedField.compile` — the checks of a submitted field.
* `Cohort.ComputedField.references` — the attributes that a field reads.
-/

namespace Cohort

/-- A computed field as it is submitted. -/
structure ComputedField.Spec where
  /-- The name of the field. -/
  field : String
  /-- The name that people see. -/
  displayName : Option String
  /-- Whether the field is an aggregate or a formula, by its name. -/
  schemaType : String
  /-- The name of the type. -/
  dataType : String
  /-- The aggregate. -/
  aggregate : Option Aggregate.Spec
  /-- The text of the formula. -/
  formula : Option String
deriving DecidableEq

/-- How a field is computed. -/
inductive Computation where
  /-- By an aggregate of the events. -/
  | aggregate (a : Aggregate)
  /-- By a formula, which is kept with its text. -/
  | formula (source : String) (e : Formula.Expr)

/-- A computed field that was accepted. -/
structure ComputedField where
  /-- The name of the field. -/
  field : String
  /-- The name that people see. -/
  displayName : String
  /-- The type of the values. -/
  dataType : DataType
  /-- How the field is computed. -/
  computation : Computation

namespace ComputedField

/-- The computation of an aggregate field. -/
def compileAggregate (field : String) (spec : Spec) : Result Computation :=
  if spec.formula.isSome then .error (.validation (.formulaOnAggregate field))
  else match spec.aggregate with
    | none => .error (.config (.missingAggregate field))
    | some a => return .aggregate (← Aggregate.compile a)

/-- The computation of a formula field, which must not mention itself. -/
def compileFormula (field : String) (spec : Spec) : Result Computation :=
  if spec.aggregate.isSome then .error (.validation (.aggregateOnFormula field))
  else match spec.formula with
    | none => .error (.validation (.missingFormula field))
    | some source => do
      let e ← Formula.compile source
      if field ∈ e.identifiers then throw (.validation (.selfReference field))
      return .formula source e

/-- The field that a submitted one means. -/
def compile (spec : Spec) : Result ComputedField := do
  let field ← readName "field" spec.field
  let dataType ← Constraint.readDataType spec.dataType
  let computation ← match Text.trim spec.schemaType with
    | "aggregate" => compileAggregate field spec
    | "formula" => compileFormula field spec
    | other => .error (.validation (.unknownSchemaType other))
  return ⟨field, spec.displayName.getD field, dataType, computation⟩

/-- The attributes that a field reads, each once. -/
def references (f : ComputedField) : List String :=
  match f.computation with
  | .aggregate _ => []
  | .formula _ e => e.identifiers

end ComputedField

end Cohort
