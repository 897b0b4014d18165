import Mathlib.Tactic.Lemma
import Cohort.Formula.Parser
set_option relaxedAutoImplicit false
set_option autoImplicit false

/-!
# Readers of formulas by their equations

The readers return what they leave together with a bound on its length, which makes them end. Here
the bounds are forgotten, and each reader satisfies the equation of the grammar that it follows.

## Main definitions

* `Cohort.Formula.bare` — what a reader finds and leaves, without the bound.

## Main results

* `Cohort.Formula.bareFormula_eq`, `Cohort.Formula.bareAdditive_eq`,
  `Cohort.Formula.bareSum_cons`, `Cohort.Formula.bareTerm_eq`, `Cohort.Formula.bareProduct_cons`,
  `Cohort.Formula.bareUnary_cons`, `Cohort.Formula.barePrimary_cons`,
  `Cohort.Formula.bareArguments_cons`, `Cohort.Formula.bareArgumentList_eq`,
  `Cohort.Formula.parseTokens_cons` — the equations of the readers.
-/

namespace Cohort.Formula

/-- What a reader finds and leaves, without the bound on what is left. -/
def bare {α : Type} {p : List Placed → Prop}
    (found : Except ParseError (α × { rest : List Placed // p rest })) :
    Except ParseError (α × List Placed) :=
  found.map fun (x, rest) => (x, rest.val)

variable {stop : Nat} {inside : Bool} {left : Expr} {t : Placed} {ts : List Placed}

/-! ### Readers without bounds -/

/-- `readFormula` without its bound. -/
def bareFormula (stop : Nat) (inside : Bool) (ts : List Placed) :
    Except ParseError (Expr × List Placed) :=
  bare (readFormula stop inside ts)

/-- `readAdditive` without its bound. -/
def bareAdditive (stop : Nat) (inside : Bool) (ts : List Placed) :
    Except ParseError (Expr × List Placed) :=
  bare (readAdditive stop inside ts)

/-- `readSum` without its bound. -/
def bareSum (stop : Nat) (inside : Bool) (left : Expr) (ts : List Placed) :
    Except ParseError (Expr × List Placed) :=
  bare (readSum stop inside left ts)

/-- `readTerm` without its bound. -/
def bareTerm (stop : Nat) (inside : Bool) (ts : List Placed) :
    Except ParseError (Expr × List Placed) :=
  bare (readTerm stop inside ts)

/-- `readProduct` without its bound. -/
def bareProduct (stop : Nat) (inside : Bool) (left : Expr) (ts : List Placed) :
    Except ParseError (Expr × List Placed) :=
  bare (readProduct stop inside left ts)

/-- `readUnary` without its bound. -/
def bareUnary (stop : Nat) (inside : Bool) (ts : List Placed) :
    Except ParseError (Expr × List Placed) :=
  bare (readUnary stop inside ts)

/-- `readPrimary` without its bound. -/
def barePrimary (stop : Nat) (inside : Bool) (ts : List Placed) :
    Except ParseError (Expr × List Placed) :=
  bare (readPrimary stop inside ts)

/-- `readArguments` without its bound. -/
def bareArguments (stop : Nat) (inside : Bool) (ts : List Placed) :
    Except ParseError (List Expr × List Placed) :=
  bare (readArguments stop inside ts)

/-- `readArgumentList` without its bound. -/
def bareArgumentList (stop : Nat) (inside : Bool) (ts : List Placed) :
    Except ParseError (List Expr × List Placed) :=
  bare (readArgumentList stop inside ts)

/-! ### Formulas and operations -/

/-- A formula is a sum, or two with a comparison between them. -/
lemma bareFormula_eq :
    bareFormula stop inside ts = do
      let (left, rest) ← bareAdditive stop inside ts
      match rest with
      | [] => return (left, [])
      | t :: others =>
        match comparisonOf? t.token with
        | none => return (left, t :: others)
        | some op => do
          let (right, rest) ← bareAdditive stop inside others
          return (.comparison op left right, rest) := by
  unfold bareFormula bareAdditive
  rw [readFormula]
  rcases readAdditive stop inside ts with e | ⟨left, rest, fewer⟩
  · rfl
  · cases rest with
    | nil => rfl
    | cons t others =>
      simp only [bare, Except.map, bind, Except.bind]
      cases comparisonOf? t.token with
      | none => rfl
      | some op => rcases readAdditive stop inside others with e | ⟨right, rest, fewer'⟩ <;> rfl

/-- A sum is a term and then what is added to it. -/
lemma bareAdditive_eq :
    bareAdditive stop inside ts = (do
      let (left, rest) ← bareTerm stop inside ts
      bareSum stop inside left rest) := by
  unfold bareAdditive bareTerm bareSum
  rw [readAdditive]
  rcases readTerm stop inside ts with e | ⟨left, rest, fewer⟩
  · rfl
  · simp only [bare, Except.map, bind, Except.bind]
    rcases readSum stop inside left rest with e | ⟨sum, rest, noMore⟩ <;> rfl

/-- At the end nothing is added to a sum. -/
lemma bareSum_nil : bareSum stop inside left [] = .ok (left, []) := by
  rw [bareSum, readSum]
  rfl

/-- A sum goes on as long as signs of addition follow, which are errors outside a calculation. -/
lemma bareSum_cons :
    bareSum stop inside left (t :: ts) =
      match additiveOf? t.token with
      | none => .ok (left, t :: ts)
      | some op =>
        if inside then do
          let (right, rest) ← bareTerm stop inside ts
          bareSum stop inside (.arithmetic op left right) rest
        else .error ⟨t.start, .arithmeticOutside⟩ := by
  unfold bareSum bareTerm
  rw [readSum]
  cases additiveOf? t.token with
  | none => rfl
  | some op =>
    cases inside with
    | false => rfl
    | true =>
      rcases readTerm stop true ts with e | ⟨right, rest, fewer⟩
      · rfl
      · simp only [bare, Except.map, bind, Except.bind, if_true]
        rcases readSum stop true (.arithmetic op left right) rest with e | ⟨sum, rest, noMore⟩ <;>
          rfl

/-- A product is an operand and then what it is multiplied by. -/
lemma bareTerm_eq :
    bareTerm stop inside ts = (do
      let (left, rest) ← bareUnary stop inside ts
      bareProduct stop inside left rest) := by
  unfold bareTerm bareUnary bareProduct
  rw [readTerm]
  rcases readUnary stop inside ts with e | ⟨left, rest, fewer⟩
  · rfl
  · simp only [bare, Except.map, bind, Except.bind]
    rcases readProduct stop inside left rest with e | ⟨product, rest, noMore⟩ <;> rfl

/-- At the end a product is not multiplied by anything. -/
lemma bareProduct_nil : bareProduct stop inside left [] = .ok (left, []) := by
  rw [bareProduct, readProduct]
  rfl

/-- A product goes on as long as signs of multiplication follow, which are errors outside a
calculation. -/
lemma bareProduct_cons :
    bareProduct stop inside left (t :: ts) =
      match multiplicativeOf? t.token with
      | none => .ok (left, t :: ts)
      | some op =>
        if inside then do
          let (right, rest) ← bareUnary stop inside ts
          bareProduct stop inside (.arithmetic op left right) rest
        else .error ⟨t.start, .arithmeticOutside⟩ := by
  unfold bareProduct bareUnary
  rw [readProduct]
  cases multiplicativeOf? t.token with
  | none => rfl
  | some op =>
    cases inside with
    | false => rfl
    | true =>
      rcases readUnary stop true ts with e | ⟨right, rest, fewer⟩
      · rfl
      · simp only [bare, Except.map, bind, Except.bind, if_true]
        rcases readProduct stop true (.arithmetic op left right) rest with
          e | ⟨product, rest, noMore⟩ <;> rfl

/-! ### Factors and calls -/

/-- An operand is missing at the end. -/
lemma bareUnary_nil : bareUnary stop inside [] = .error ⟨stop, .unexpectedEnd⟩ := by
  rw [bareUnary, readUnary, readPrimary]
  rfl

/-- A minus sign belongs to the literal after it, and otherwise makes an opposite, which is an error
outside a calculation.

**Proof sketch.** The reader with its bound takes the same turns, and forgetting the bound after
each of them changes nothing. -/
lemma bareUnary_cons :
    bareUnary stop inside (t :: ts) =
      if t.token = .minus then
        match negativeLiteral? ts with
        | some (literal, rest) => .ok (literal, rest.val)
        | none =>
          if inside then do
            let (body, rest) ← bareUnary stop inside ts
            return (.negate body, rest)
          else .error ⟨t.start, .arithmeticOutside⟩
      else barePrimary stop inside (t :: ts) := by
  unfold barePrimary
  rw [bareUnary, readUnary]
  by_cases hminus : t.token = .minus
  · rw [if_pos hminus, if_pos hminus]
    cases negativeLiteral? ts with
    | some found => rfl
    | none =>
      cases inside with
      | false => rfl
      | true =>
        unfold bareUnary
        simp only [if_true]
        rcases readUnary stop true ts with e | ⟨body, rest, fewer⟩ <;> rfl
  · rw [if_neg hminus, if_neg hminus]

/-- A literal, a name, a call or a parenthesis is missing at the end. -/
lemma barePrimary_nil : barePrimary stop inside [] = .error ⟨stop, .unexpectedEnd⟩ := by
  rw [barePrimary, readPrimary]
  rfl

/-- A call of a function with a name, from after its opening parenthesis on, without bounds. -/
def bareCall (stop : Nat) (inside : Bool) (start : Nat) (name : String) (ts : List Placed) :
    Except ParseError (Expr × List Placed) :=
  match Function.ofName? name with
  | none => .error ⟨start, .unknownFunction name⟩
  | some f => do
    let (arguments, rest) ← bareArguments stop (inside || f.allowsArithmetic) ts
    match ofCall? f arguments with
    | some call => return (call, rest)
    | none => .error ⟨start, .wrongArity f arguments.length⟩

/-- A literal is one token, a formula may stand in parentheses, and a name is a call if a
parenthesis follows.

**Proof sketch.** By the first token, in each case as the reader with its bound does. -/
lemma barePrimary_cons :
    barePrimary stop inside (t :: ts) =
      match t.token with
      | .number n => .ok (.number n, ts)
      | .duration d => .ok (.duration d, ts)
      | .text s => .ok (.text s, ts)
      | .openParen => do
        let (body, rest) ← bareFormula stop inside ts
        let rest ← closeParen stop rest
        return (body, rest.val)
      | .ident name =>
        match ts with
        | [] => .ok (ofName name, [])
        | u :: inner =>
          if u.token = .openParen then bareCall stop inside t.start name inner
          else .ok (ofName name, u :: inner)
      | .closeParen => .error ⟨t.start, .unbalanced⟩
      | token => .error ⟨t.start, .unexpected token⟩ := by
  unfold barePrimary
  rw [readPrimary]
  cases t.token with
  | openParen =>
    unfold bareFormula
    rcases readFormula stop inside ts with e | ⟨body, rest, fewer⟩
    · rfl
    · simp only [bare, Except.map, bind, Except.bind]
      rcases closeParen stop rest with e | ⟨rest, fewer'⟩ <;> rfl
  | ident name =>
    cases ts with
    | nil => rfl
    | cons u inner =>
      by_cases hopen : u.token = .openParen
      · simp only [if_pos hopen]
        unfold bareCall bareArguments
        cases Function.ofName? name with
        | none => rfl
        | some f =>
          simp only
          rcases readArguments stop (inside || f.allowsArithmetic) inner with
            e | ⟨arguments, rest, fewer⟩
          · rfl
          · simp only [bare, Except.map, bind, Except.bind]
            cases ofCall? f arguments with
            | none => rfl
            | some call => rfl
      · simp only [if_neg hopen]
        rfl
  | _ => rfl

/-- At the end, arguments are missing as in a list that cannot be empty. -/
lemma bareArguments_nil : bareArguments stop inside [] = bareArgumentList stop inside [] := by
  rw [bareArguments, readArguments, bareArgumentList]

/-- Arguments may be missing, if the parenthesis is closed at once. -/
lemma bareArguments_cons :
    bareArguments stop inside (t :: ts) =
      if t.token = .closeParen then .ok ([], ts)
      else bareArgumentList stop inside (t :: ts) := by
  unfold bareArgumentList
  rw [bareArguments, readArguments]
  by_cases hclose : t.token = .closeParen
  · rw [if_pos hclose, if_pos hclose]
    rfl
  · rw [if_neg hclose, if_neg hclose]

/-- Arguments are formulas, with a comma after each but the last one and the parenthesis after
that.

**Proof sketch.** The reader with its bound takes the same turns, by what follows the first
argument. -/
lemma bareArgumentList_eq :
    bareArgumentList stop inside ts = (do
      let (argument, rest) ← bareFormula stop inside ts
      match rest with
      | [] => .error ⟨stop, .openArguments⟩
      | t :: others =>
        if t.token = .comma then do
          let (arguments, rest) ← bareArgumentList stop inside others
          return (argument :: arguments, rest)
        else if t.token = .closeParen then return ([argument], others)
        else .error ⟨t.start, .unexpectedInArguments t.token⟩) := by
  rw [bareArgumentList, readArgumentList]
  unfold bareFormula
  rcases readFormula stop inside ts with e | ⟨argument, rest, fewer⟩
  · rfl
  · cases rest with
    | nil => rfl
    | cons t others =>
      simp only [bare, Except.map, bind, Except.bind]
      by_cases hcomma : t.token = .comma
      · simp only [if_pos hcomma]
        unfold bareArgumentList
        rcases readArgumentList stop inside others with e | ⟨arguments, rest, fewer'⟩ <;> rfl
      · simp only [if_neg hcomma]
        by_cases hclose : t.token = .closeParen
        · simp only [if_pos hclose]
          rfl
        · simp only [if_neg hclose]

/-! ### Whole formulas -/

/-- All tokens have to belong to the formula. -/
lemma parseTokens_cons :
    parseTokens stop (t :: ts) = (do
      let (e, rest) ← bareFormula stop false (t :: ts)
      match rest with
      | [] => return e
      | t :: _ =>
        .error ⟨t.start, if t.token = .closeParen then .unbalanced else .trailing t.token⟩) := by
  unfold parseTokens bareFormula
  simp only
  rcases readFormula stop false (t :: ts) with e | ⟨e, rest, fewer⟩
  · rfl
  · cases rest with
    | nil => rfl
    | cons u others => rfl

end Cohort.Formula
