import Cohort.DataType
set_option autoImplicit false

/-!
# Operators of constraints

## Main definitions

* `Cohort.Operator` — how a constraint compares a value with its operands.
* `Cohort.Operator.legal` — the operators that a data type accepts.
-/

namespace Cohort

/-- How a constraint compares a value with its operands. -/
inductive Operator where
  | is
  | isNot
  | contains
  | notContains
  | startsWith
  | endsWith
  | greaterThan
  | lessThan
  | between
  | before
  | after
  | isSet
  | isNotSet
deriving DecidableEq, Repr

namespace Operator

/-- The name of an operator. -/
def name : Operator → String
  | .is => "is"
  | .isNot => "is_not"
  | .contains => "contains"
  | .notContains => "not_contains"
  | .startsWith => "starts_with"
  | .endsWith => "ends_with"
  | .greaterThan => "greater_than"
  | .lessThan => "less_than"
  | .between => "between"
  | .before => "before"
  | .after => "after"
  | .isSet => "is_set"
  | .isNotSet => "is_not_set"

/-- All operators. -/
def all : List Operator :=
  [.is, .isNot, .contains, .notContains, .startsWith, .endsWith, .greaterThan, .lessThan,
   .between, .before, .after, .isSet, .isNotSet]

/-- The operator with a name, which may have blanks around it. -/
def ofName? (s : String) : Option Operator :=
  all.find? (·.name = Text.trim s)

/-- The operators that a data type accepts. -/
def legal : DataType → List Operator
  | .string =>
    [.is, .isNot, .contains, .notContains, .startsWith, .endsWith, .isSet, .isNotSet]
  | .number | .duration =>
    [.is, .isNot, .greaterThan, .lessThan, .between, .isSet, .isNotSet]
  | .boolean => [.is, .isNot]
  | .date => [.before, .after, .between, .isSet, .isNotSet]

end Operator

end Cohort
