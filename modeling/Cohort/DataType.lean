import Cohort.Text.Blank
set_option autoImplicit false

/-!
# Data types

Fields are declared with a type, and constraints name the type of what they test.

## Main definitions

* `Cohort.DataType` — the type of a field.
* `Cohort.DataType.ofName?` — a type by its name.
-/

namespace Cohort

/-- The type of a field. -/
inductive DataType where
  /-- Text. -/
  | string
  /-- A number. -/
  | number
  /-- A truth value. -/
  | boolean
  /-- An instant. -/
  | date
  /-- A number of seconds. -/
  | duration
deriving DecidableEq, Repr

namespace DataType

/-- The name of a type. -/
def name : DataType → String
  | .string => "string"
  | .number => "number"
  | .boolean => "boolean"
  | .date => "date"
  | .duration => "duration"

/-- All types. -/
def all : List DataType := [.string, .number, .boolean, .date, .duration]

/-- The type with a name, which may have capitals and blanks around it. -/
def ofName? (s : String) : Option DataType :=
  all.find? (·.name = Text.keyword s)

/-- Whether values of the type are compared as numbers. -/
def isNumeric : DataType → Bool
  | .number | .duration => true
  | _ => false

end DataType

end Cohort
