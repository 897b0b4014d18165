import Cohort.Formula.Expr
import Cohort.Formula.Lexer
set_option autoImplicit false

/-!
# Reading formulas

```text
formula    := additive (("==" | "!=" | ">" | ">=" | "<" | "<=") additive)?
additive   := term (("+" | "-") term)*
term       := unary (("*" | "/") unary)*
unary      := "-" NUMBER | "-" DURATION | "-" unary | primary
primary    := NUMBER | DURATION | TEXT | IDENT | "(" formula ")"
            | IDENT "(" (formula ("," formula)*)? ")"
```

Operations of arithmetic and negations other than of literals are allowed only inside `MATH` or
`DATE`. Every reader returns the tokens that it leaves, which are fewer than those it was given.

## Main definitions

* `Cohort.Formula.ParseError` — where and why a formula is refused.
* `Cohort.Formula.parse` — the tree of a formula.
-/

namespace Cohort.Formula

/-- A token with the number of bytes before it. -/
structure Placed where
  /-- The token. -/
  token : Token
  /-- The number of bytes before it. -/
  start : Nat
deriving DecidableEq

/-- What a reader found where it expected something else: a token, or none. -/
abbrev Found := Option Token

/-- Why a formula is refused. -/
inductive ParseFault where
  /-- A lexeme spells no token. -/
  | invalidToken (text : List Char)
  /-- There is no token. -/
  | empty
  /-- A token follows the formula. -/
  | trailing (token : Token)
  /-- A parenthesis closes nothing. -/
  | unbalanced
  /-- The formula ends where a part of it should start. -/
  | unexpectedEnd
  /-- A token stands where a part of the formula should start. -/
  | unexpected (token : Token)
  /-- A parenthesis is not closed. -/
  | unclosed (found : Found)
  /-- A function has no such name. -/
  | unknownFunction (name : String)
  /-- A function does not take so many arguments. -/
  | wrongArity (function : Function) (count : Nat)
  /-- A token stands where an argument list should go on or end. -/
  | unexpectedInArguments (token : Token)
  /-- An argument list does not end. -/
  | openArguments
  /-- Arithmetic stands outside the functions that allow it. -/
  | arithmeticOutside
deriving DecidableEq

/-- The counts of arguments that a function takes, in a message. -/
def Function.describeArity (f : Function) : String :=
  match f.mostArguments with
  | some most =>
    if most = f.leastArguments then toString most
    else toString f.leastArguments ++ " to " ++ toString most
  | none => "at least " ++ toString f.leastArguments

/-- The wording of a fault. -/
def ParseFault.message : ParseFault → String
  | .invalidToken text => "invalid token '" ++ String.ofList text ++ "'"
  | .empty => "formula is empty"
  | .trailing token => "unexpected " ++ token.describe ++ " after end of expression"
  | .unbalanced => "unbalanced ')'"
  | .unexpectedEnd => "unexpected end of formula"
  | .unexpected token => "unexpected " ++ token.describe
  | .unclosed (some token) => "expected ')' to close '(', found " ++ token.describe
  | .unclosed none => "expected ')' to close '(', found end of formula"
  | .unknownFunction name => "unknown function '" ++ name ++ "'"
  | .wrongArity f count =>
    f.name ++ " expects " ++ f.describeArity ++ " argument(s), got " ++ toString count
  | .unexpectedInArguments token => "expected ',' or ')', found " ++ token.describe
  | .openArguments => "unbalanced '(': missing ')'"
  | .arithmeticOutside => "arithmetic is only allowed inside MATH() or DATE()"

/-- Where and why a formula is refused. -/
structure ParseError where
  /-- The number of bytes before the place. -/
  position : Nat
  /-- Why. -/
  fault : ParseFault
deriving DecidableEq

/-- What is left of the tokens, fewer than before. -/
abbrev Fewer (ts : List Placed) := { rest : List Placed // rest.length < ts.length }

/-- What is left of the tokens, no more than before. -/
abbrev NoMore (ts : List Placed) := { rest : List Placed // rest.length ≤ ts.length }

/-- The comparison that a token stands for. -/
def comparisonOf? : Token → Option ComparisonOp
  | .equal => some .equal
  | .notEqual => some .notEqual
  | .greater => some .greater
  | .atLeast => some .atLeast
  | .less => some .less
  | .atMost => some .atMost
  | _ => none

/-- The operation that a token stands for between terms. -/
def additiveOf? : Token → Option ArithmeticOp
  | .plus => some .add
  | .minus => some .subtract
  | _ => none

/-- The operation that a token stands for inside terms. -/
def multiplicativeOf? : Token → Option ArithmeticOp
  | .star => some .multiply
  | .slash => some .divide
  | _ => none

/-- A name that is not called: one of the words for truth values and null, or an attribute. -/
def ofName (name : String) : Expr :=
  if name = "true" || name = "TRUE" then .bool true
  else if name = "false" || name = "FALSE" then .bool false
  else if name = "null" || name = "NULL" then .null
  else .ident name

/-- A call, if the function takes so many arguments. -/
def ofCall? : Function → List Expr → Option Expr
  | .cat, first :: rest => some (.cat first rest)
  | .choose, [condition, accepted, rejected] => some (.choose condition accepted rejected)
  | .math, [body] => some (.math body)
  | .date, [body] => some (.date body)
  | _, _ => none

/-- A literal after a minus sign, with the minus taken in. -/
def negativeLiteral? : (ts : List Placed) → Option (Expr × Fewer ts)
  | [] => none
  | t :: others =>
    match t.token with
    | .number n => some (.number (-n), ⟨others, by simp⟩)
    | .duration d => some (.duration (-d), ⟨others, by simp⟩)
    | _ => none

/-- Passes the parenthesis that closes another one. -/
def closeParen (stop : Nat) : (ts : List Placed) → Except ParseError (Fewer ts)
  | [] => .error ⟨stop, .unclosed none⟩
  | t :: others =>
    if t.token = .closeParen then .ok ⟨others, by simp⟩
    else .error ⟨t.start, .unclosed (some t.token)⟩

mutual

/-- Reads a formula; `inside` says whether a call around it allows arithmetic, and `stop` is the
number of bytes of the whole formula. -/
def readFormula (stop : Nat) (inside : Bool) (ts : List Placed) :
    Except ParseError (Expr × Fewer ts) := do
  let (left, ⟨rest, fewer⟩) ← readAdditive stop inside ts
  match hrest : rest with
  | [] => return (left, ⟨[], hrest ▸ fewer⟩)
  | t :: others =>
    match comparisonOf? t.token with
    | none => return (left, ⟨rest, fewer⟩)
    | some op =>
      have shorter : others.length < ts.length := by simp [hrest] at fewer; omega
      let (right, ⟨rest, fewer⟩) ← readAdditive stop inside others
      return (.comparison op left right, ⟨rest, by omega⟩)
termination_by (ts.length, 6)

/-- Reads terms with signs of addition between them. -/
def readAdditive (stop : Nat) (inside : Bool) (ts : List Placed) :
    Except ParseError (Expr × Fewer ts) := do
  let (left, ⟨rest, fewer⟩) ← readTerm stop inside ts
  let (sum, ⟨rest, noMore⟩) ← readSum stop inside left rest
  return (sum, ⟨rest, by omega⟩)
termination_by (ts.length, 5)

/-- Goes on with a sum whose terms so far are `left`. -/
def readSum (stop : Nat) (inside : Bool) (left : Expr) (ts : List Placed) :
    Except ParseError (Expr × NoMore ts) :=
  match ts with
  | [] => .ok (left, ⟨[], by simp⟩)
  | t :: others =>
    match additiveOf? t.token with
    | none => .ok (left, ⟨t :: others, by simp⟩)
    | some op =>
      if inside then do
        let (right, ⟨rest, fewer⟩) ← readTerm stop inside others
        let (sum, ⟨rest, noMore⟩) ← readSum stop inside (.arithmetic op left right) rest
        return (sum, ⟨rest, by simp only [List.length_cons]; omega⟩)
      else .error ⟨t.start, .arithmeticOutside⟩
termination_by (ts.length, 0)

/-- Reads factors with signs of multiplication between them. -/
def readTerm (stop : Nat) (inside : Bool) (ts : List Placed) :
    Except ParseError (Expr × Fewer ts) := do
  let (left, ⟨rest, fewer⟩) ← readUnary stop inside ts
  let (product, ⟨rest, noMore⟩) ← readProduct stop inside left rest
  return (product, ⟨rest, by omega⟩)
termination_by (ts.length, 4)

/-- Goes on with a product whose factors so far are `left`. -/
def readProduct (stop : Nat) (inside : Bool) (left : Expr) (ts : List Placed) :
    Except ParseError (Expr × NoMore ts) :=
  match ts with
  | [] => .ok (left, ⟨[], by simp⟩)
  | t :: others =>
    match multiplicativeOf? t.token with
    | none => .ok (left, ⟨t :: others, by simp⟩)
    | some op =>
      if inside then do
        let (right, ⟨rest, fewer⟩) ← readUnary stop inside others
        let (product, ⟨rest, noMore⟩) ← readProduct stop inside (.arithmetic op left right) rest
        return (product, ⟨rest, by simp only [List.length_cons]; omega⟩)
      else .error ⟨t.start, .arithmeticOutside⟩
termination_by (ts.length, 0)

/-- Reads a factor with its signs. A minus directly before a literal makes the literal negative. -/
def readUnary (stop : Nat) (inside : Bool) (ts : List Placed) :
    Except ParseError (Expr × Fewer ts) :=
  match ts with
  | [] => readPrimary stop inside []
  | t :: others =>
    if t.token = .minus then
      match negativeLiteral? others with
      | some (literal, rest) => .ok (literal, ⟨rest.val, by have := rest.property; simp; omega⟩)
      | none =>
        if inside then do
          let (body, ⟨rest, fewer⟩) ← readUnary stop inside others
          return (.negate body, ⟨rest, by simp only [List.length_cons]; omega⟩)
        else .error ⟨t.start, .arithmeticOutside⟩
    else readPrimary stop inside (t :: others)
termination_by (ts.length, 3)

/-- Reads a literal, an attribute, a call or a formula in parentheses. -/
def readPrimary (stop : Nat) (inside : Bool) (ts : List Placed) :
    Except ParseError (Expr × Fewer ts) :=
  match ts with
  | [] => .error ⟨stop, .unexpectedEnd⟩
  | t :: others =>
    match t.token with
    | .number n => .ok (.number n, ⟨others, by simp⟩)
    | .duration d => .ok (.duration d, ⟨others, by simp⟩)
    | .text s => .ok (.text s, ⟨others, by simp⟩)
    | .openParen => do
      let (body, ⟨rest, fewer⟩) ← readFormula stop inside others
      let ⟨rest, fewer'⟩ ← closeParen stop rest
      return (body, ⟨rest, by simp only [List.length_cons]; omega⟩)
    | .ident name =>
      match others with
      | [] => .ok (ofName name, ⟨[], by simp⟩)
      | u :: inner =>
        if u.token = .openParen then
          match Function.ofName? name with
          | none => .error ⟨t.start, .unknownFunction name⟩
          | some f => do
            let (arguments, ⟨rest, fewer⟩) ←
              readArguments stop (inside || f.allowsArithmetic) inner
            match ofCall? f arguments with
            | some call => return (call, ⟨rest, by simp only [List.length_cons]; omega⟩)
            | none => .error ⟨t.start, .wrongArity f arguments.length⟩
        else .ok (ofName name, ⟨u :: inner, by simp⟩)
    | .closeParen => .error ⟨t.start, .unbalanced⟩
    | token => .error ⟨t.start, .unexpected token⟩
termination_by (ts.length, 2)

/-- Reads the arguments of a call after its opening parenthesis, up to and with the closing one. -/
def readArguments (stop : Nat) (inside : Bool) (ts : List Placed) :
    Except ParseError (List Expr × Fewer ts) :=
  match ts with
  | [] => readArgumentList stop inside []
  | t :: others =>
    if t.token = .closeParen then .ok ([], ⟨others, by simp⟩)
    else readArgumentList stop inside (t :: others)
termination_by (ts.length, 8)

/-- Reads one or more arguments up to and with the closing parenthesis. -/
def readArgumentList (stop : Nat) (inside : Bool) (ts : List Placed) :
    Except ParseError (List Expr × Fewer ts) := do
  let (argument, ⟨rest, fewer⟩) ← readFormula stop inside ts
  match hrest : rest with
  | [] => .error ⟨stop, .openArguments⟩
  | t :: others =>
    have shorter : others.length < ts.length := by simp [hrest] at fewer; omega
    if t.token = .comma then
      let (arguments, ⟨rest, fewer⟩) ← readArgumentList stop inside others
      return (argument :: arguments, ⟨rest, by omega⟩)
    else if t.token = .closeParen then return ([argument], ⟨others, shorter⟩)
    else .error ⟨t.start, .unexpectedInArguments t.token⟩
termination_by (ts.length, 7)

end

/-- The tokens of lexemes, unless one of them is invalid. -/
def placed (ls : List Lexeme) : Except ParseError (List Placed) :=
  ls.mapM fun l =>
    match l.token? with
    | some token => .ok ⟨token, l.start⟩
    | none => .error ⟨l.start, .invalidToken l.text⟩

/-- The tree of tokens that take up the whole formula. -/
def parseTokens (stop : Nat) (ts : List Placed) : Except ParseError Expr :=
  match ts with
  | [] => .error ⟨0, .empty⟩
  | ts => do
    let (e, ⟨rest, _⟩) ← readFormula stop false ts
    match rest with
    | [] => return e
    | t :: _ =>
      .error ⟨t.start, if t.token = .closeParen then .unbalanced else .trailing t.token⟩

/-- The tree of a formula. The first invalid lexeme is reported before anything else. -/
def parse (source : String) : Except ParseError Expr := do
  parseTokens source.utf8ByteSize (← placed (lexemes source))

end Cohort.Formula
