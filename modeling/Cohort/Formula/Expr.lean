set_option autoImplicit false

/-!
# Formulas

## Main definitions

* `Cohort.Formula.Expr` — a formula as a tree.
* `Cohort.Formula.Function` — the functions of the language.
* `Cohort.Formula.Expr.identifiers` — the attributes that a formula mentions.
-/

namespace Cohort.Formula

/-- The operations of arithmetic. -/
inductive ArithmeticOp where
  | add
  | subtract
  | multiply
  | divide
deriving DecidableEq, Repr

/-- The operators that compare. -/
inductive ComparisonOp where
  | equal
  | notEqual
  | greater
  | atLeast
  | less
  | atMost
deriving DecidableEq, Repr

/-- The functions of the language. -/
inductive Function where
  /-- Joins texts. -/
  | cat
  /-- Chooses between two formulas. -/
  | choose
  /-- Calculates with numbers. -/
  | math
  /-- Calculates with instants and lengths of time. -/
  | date
deriving DecidableEq, Repr

namespace Function

/-- The name of a function. -/
def name : Function → String
  | .cat => "CAT"
  | .choose => "IF"
  | .math => "MATH"
  | .date => "DATE"

/-- All functions. -/
def all : List Function := [.cat, .choose, .math, .date]

/-- The function with a name, in any case. -/
def ofName? (s : String) : Option Function :=
  all.find? (·.name = s.map Char.toUpper)

/-- The least number of arguments. -/
def leastArguments : Function → Nat
  | .choose => 3
  | _ => 1

/-- The greatest number of arguments, if there is one. -/
def mostArguments : Function → Option Nat
  | .cat => none
  | .choose => some 3
  | .math | .date => some 1

/-- Whether arithmetic is allowed in the arguments wherever the call stands. -/
def allowsArithmetic : Function → Bool
  | .math | .date => true
  | .cat | .choose => false

end Function

/-- A formula as a tree. -/
inductive Expr where
  /-- An attribute. -/
  | ident (name : String)
  /-- A text. -/
  | text (value : String)
  /-- A number. -/
  | number (value : Float)
  /-- A length of time in seconds. -/
  | duration (seconds : Float)
  /-- A truth value. -/
  | bool (value : Bool)
  /-- No value. -/
  | null
  /-- The texts of one or more formulas, joined. -/
  | cat (first : Expr) (rest : List Expr)
  /-- One of two formulas, chosen by a condition. -/
  | choose (condition accepted rejected : Expr)
  /-- A calculation with numbers. -/
  | math (body : Expr)
  /-- A calculation with instants and lengths of time. -/
  | date (body : Expr)
  /-- An operation of arithmetic. -/
  | arithmetic (op : ArithmeticOp) (left right : Expr)
  /-- A comparison. -/
  | comparison (op : ComparisonOp) (left right : Expr)
  /-- The opposite number or length of time. -/
  | negate (body : Expr)

namespace Expr

mutual

/-- The attributes that a formula mentions, from left to right and as often as it does. -/
def mentions : Expr → List String
  | .ident name => [name]
  | .text _ | .number _ | .duration _ | .bool _ | .null => []
  | .cat first rest => mentions first ++ mentionsAll rest
  | .choose condition accepted rejected =>
    mentions condition ++ mentions accepted ++ mentions rejected
  | .math body | .date body | .negate body => mentions body
  | .arithmetic _ left right | .comparison _ left right => mentions left ++ mentions right

/-- The attributes that formulas mention. -/
def mentionsAll : List Expr → List String
  | [] => []
  | e :: es => mentions e ++ mentionsAll es

end

/-- The attributes that a formula mentions anywhere, each once, in the order in which they are first
mentioned. -/
def identifiers (e : Expr) : List String :=
  (mentions e).eraseDups

end Expr

end Cohort.Formula
