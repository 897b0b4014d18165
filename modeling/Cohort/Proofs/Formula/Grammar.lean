import Mathlib.Tactic.Lemma
import Cohort.Formula.Expr
import Cohort.Formula.Token
set_option relaxedAutoImplicit false
set_option autoImplicit false

/-!
# The grammar of formulas

A formula is derived level by level: comparisons of sums, sums of products, products of factors.
Operations of arithmetic and negations are derived only inside a call that allows them, that is
below `MATH` or `DATE` at any depth. Every production says which tree it builds.

## Main definitions

* `Cohort.Formula.Level` — the levels of the grammar.
* `Cohort.Formula.Call` — the calls that functions allow, with their numbers of arguments.
* `Cohort.Formula.Derives` — which tokens derive which tree at a level.

## Main results

* `Cohort.Formula.Derives.starts` — how what a level derives starts.
-/

namespace Cohort.Formula

/-- The token of a comparison. -/
def ComparisonOp.token : ComparisonOp → Token
  | .equal => .equal
  | .notEqual => .notEqual
  | .greater => .greater
  | .atLeast => .atLeast
  | .less => .less
  | .atMost => .atMost

/-- The token of an operation of arithmetic. -/
def ArithmeticOp.token : ArithmeticOp → Token
  | .add => .plus
  | .subtract => .minus
  | .multiply => .star
  | .divide => .slash

/-- Whether an operation joins terms to a sum; the others join factors to a product. -/
def ArithmeticOp.joinsTerms : ArithmeticOp → Bool
  | .add | .subtract => true
  | .multiply | .divide => false

/-- The names that stand for values. -/
def keywords : List (String × Expr) :=
  [("true", .bool true), ("TRUE", .bool true), ("false", .bool false), ("FALSE", .bool false),
    ("null", .null), ("NULL", .null)]

/-- The calls of functions, with as many arguments as each takes. -/
inductive Call : Function → List Expr → Expr → Prop
  | cat {first : Expr} {rest : List Expr} : Call .cat (first :: rest) (.cat first rest)
  | choose {condition accepted rejected : Expr} :
      Call .choose [condition, accepted, rejected] (.choose condition accepted rejected)
  | math {body : Expr} : Call .math [body] (.math body)
  | date {body : Expr} : Call .date [body] (.date body)

/-- Whether a sequence starts with a number or a length of time. -/
def StartsWithLiteral (tokens : List Token) : Prop :=
  (∃ n rest, tokens = .number n :: rest) ∨ ∃ d rest, tokens = .duration d :: rest

/-- Whether a sequence starts with a literal is told by its first token. -/
lemma startsWithLiteral_cons {first : Token} {others : List Token} :
    StartsWithLiteral (first :: others) ↔
      (∃ n, first = .number n) ∨ ∃ d, first = .duration d := by
  simp [StartsWithLiteral]

/-- The levels of the grammar, from a whole formula to what needs no parentheses anywhere. -/
inductive Level where
  | formula
  | additive
  | term
  | unary
  | primary
deriving DecidableEq

/-- The sequences of tokens that a level derives, with their trees. The truth value says whether a
call around the sequence allows arithmetic. -/
inductive Derives : Bool → Level → List Token → Expr → Prop
  /-- At most one comparison stands between two sums. -/
  | comparison {inside : Bool} {left right : List Token} {l r : Expr} {op : ComparisonOp}
      (hleft : Derives inside .additive left l) (hright : Derives inside .additive right r) :
      Derives inside .formula (left ++ op.token :: right) (.comparison op l r)
  | additive {inside : Bool} {tokens : List Token} {e : Expr}
      (h : Derives inside .additive tokens e) : Derives inside .formula tokens e
  /-- Sums associate to the left. -/
  | sum {left right : List Token} {l r : Expr} {op : ArithmeticOp} (hop : op.joinsTerms = true)
      (hleft : Derives true .additive left l) (hright : Derives true .term right r) :
      Derives true .additive (left ++ op.token :: right) (.arithmetic op l r)
  | term {inside : Bool} {tokens : List Token} {e : Expr} (h : Derives inside .term tokens e) :
      Derives inside .additive tokens e
  /-- So do products. -/
  | product {left right : List Token} {l r : Expr} {op : ArithmeticOp}
      (hop : op.joinsTerms = false) (hleft : Derives true .term left l)
      (hright : Derives true .unary right r) :
      Derives true .term (left ++ op.token :: right) (.arithmetic op l r)
  | unary {inside : Bool} {tokens : List Token} {e : Expr} (h : Derives inside .unary tokens e) :
      Derives inside .term tokens e
  /-- A minus directly before a literal belongs to the literal, anywhere. -/
  | negativeNumber {inside : Bool} (n : Float) :
      Derives inside .unary [.minus, .number n] (.number (-n))
  | negativeDuration {inside : Bool} (d : Float) :
      Derives inside .unary [.minus, .duration d] (.duration (-d))
  /-- Before anything else it is an operation of arithmetic. -/
  | negate {tokens : List Token} {e : Expr} (hliteral : ¬ StartsWithLiteral tokens)
      (h : Derives true .unary tokens e) : Derives true .unary (.minus :: tokens) (.negate e)
  | primary {inside : Bool} {tokens : List Token} {e : Expr}
      (h : Derives inside .primary tokens e) : Derives inside .unary tokens e
  | number {inside : Bool} (n : Float) : Derives inside .primary [.number n] (.number n)
  | duration {inside : Bool} (d : Float) : Derives inside .primary [.duration d] (.duration d)
  | text {inside : Bool} (s : String) : Derives inside .primary [.text s] (.text s)
  | keyword {inside : Bool} {name : String} {e : Expr} (h : (name, e) ∈ keywords) :
      Derives inside .primary [.ident name] e
  | ident {inside : Bool} {name : String} (h : ∀ e, (name, e) ∉ keywords) :
      Derives inside .primary [.ident name] (.ident name)
  | parentheses {inside : Bool} {tokens : List Token} {e : Expr}
      (h : Derives inside .formula tokens e) :
      Derives inside .primary (.openParen :: (tokens ++ [.closeParen])) e
  /-- A call allows arithmetic in its arguments if the function does, or a call around it. -/
  | call {inside : Bool} {name : String} {f : Function} {arguments : List (List Token × Expr)}
      {e : Expr} (hname : name.map Char.toUpper = f.name)
      (harguments : ∀ a ∈ arguments, Derives (inside || f.allowsArithmetic) .formula a.1 a.2)
      (hcall : Call f (arguments.map Prod.snd) e) :
      Derives inside .primary
        (.ident name :: .openParen ::
          (List.intercalate [.comma] (arguments.map Prod.fst) ++ [.closeParen])) e

/-- A call with one argument. -/
lemma Derives.call_one {inside : Bool} {name : String} {f : Function} {tokens : List Token}
    {e e' : Expr} (hname : name.map Char.toUpper = f.name)
    (h : Derives (inside || f.allowsArithmetic) .formula tokens e) (hcall : Call f [e] e') :
    Derives inside .primary (.ident name :: .openParen :: (tokens ++ [.closeParen])) e' := by
  have hall : ∀ a ∈ [(tokens, e)], Derives (inside || f.allowsArithmetic) .formula a.1 a.2 := by
    intro a ha
    obtain rfl := List.mem_singleton.mp ha
    exact h
  simpa using Derives.call hname hall hcall

/-- What a level derives starts with a token, which closes no parenthesis. -/
lemma Derives.starts {inside : Bool} {level : Level} {tokens : List Token} {e : Expr}
    (h : Derives inside level tokens e) :
    ∃ first rest, tokens = first :: rest ∧ first ≠ .closeParen := by
  induction h with
  | comparison _ _ ih _ | sum _ _ _ ih _ | product _ _ _ ih _ =>
    obtain ⟨first, rest, rfl, hfirst⟩ := ih
    exact ⟨first, _, rfl, hfirst⟩
  | additive _ ih | term _ ih | unary _ ih | primary _ ih => exact ih
  | _ => exact ⟨_, _, rfl, Token.noConfusion⟩

end Cohort.Formula
