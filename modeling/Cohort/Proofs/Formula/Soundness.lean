import Mathlib.Tactic.Lemma
import Cohort.Proofs.Formula.Grammar
import Cohort.Proofs.Formula.Reader
import Cohort.Proofs.Result
set_option relaxedAutoImplicit false
set_option autoImplicit false

/-!
# What readers of formulas take derives what they return

A reader takes tokens from the front. If it succeeds, its level derives them with the tree that it
returns; a loop that goes on with a sum or a product lengthens every derivation of what came before.

## Main definitions

* `Cohort.Formula.Takes`, `Cohort.Formula.Extends`, `Cohort.Formula.TakesArguments` — what readers,
  loops and readers of arguments have done when they succeed.

## Main results

* `Cohort.Formula.bareFormula_sound` — what the reader of a formula takes derives its tree.
-/

namespace Cohort.Formula

variable {stop : Nat} {inside : Bool} {level : Level} {e l r : Expr} {t : Placed}
  {ts rest : List Placed}

/-! ### Tokens and names -/

/-- A token is read as the comparison that it stands for. -/
lemma comparisonOf?_eq_some {token : Token} {op : ComparisonOp} :
    comparisonOf? token = some op ↔ token = op.token := by
  cases token <;> cases op <;> simp [comparisonOf?, ComparisonOp.token]

/-- A token is read as the sign of a sum or a difference that it stands for. -/
lemma additiveOf?_eq_some {token : Token} {op : ArithmeticOp} :
    additiveOf? token = some op ↔ op.joinsTerms = true ∧ token = op.token := by
  cases token <;> cases op <;>
    simp [additiveOf?, ArithmeticOp.token, ArithmeticOp.joinsTerms]

/-- A token is read as the sign of a product or a quotient that it stands for. -/
lemma multiplicativeOf?_eq_some {token : Token} {op : ArithmeticOp} :
    multiplicativeOf? token = some op ↔ op.joinsTerms = false ∧ token = op.token := by
  cases token <;> cases op <;>
    simp [multiplicativeOf?, ArithmeticOp.token, ArithmeticOp.joinsTerms]

/-- A function is found by its name in any case. -/
lemma Function.ofName?_eq_some {name : String} {f : Function} :
    Function.ofName? name = some f ↔ name.map Char.toUpper = f.name := by
  unfold Function.ofName?
  constructor
  · intro h
    have := List.find?_some h
    simpa using (of_decide_eq_true this).symm
  · intro h
    rw [h]
    cases f <;> decide

/-- A call is built exactly of as many arguments as the function takes.

**Proof sketch.** By the function and the number of its arguments. -/
lemma ofCall?_eq_some {f : Function} {arguments : List Expr} :
    ofCall? f arguments = some e ↔ Call f arguments e := by
  constructor
  · intro h
    unfold ofCall? at h
    split at h
    · cases h
      exact .cat
    · cases h
      exact .choose
    · cases h
      exact .math
    · cases h
      exact .date
    · cases h
  · intro h
    cases h <;> rfl

/-- Every function takes an argument. -/
lemma Call.ne_nil {f : Function} {arguments : List Expr} (h : Call f arguments e) :
    arguments ≠ [] := by
  cases h <;> exact List.cons_ne_nil _ _

/-- A name that is not called is a keyword with its value or names an attribute.

**Proof sketch.** The name is compared with the spellings of the keywords one after the other, and
if it is none of them it names an attribute. -/
lemma mem_keywords_or (name : String) :
    (name, ofName name) ∈ keywords ∨ (∀ e, (name, e) ∉ keywords) ∧ ofName name = .ident name := by
  unfold ofName
  split
  case isTrue h =>
    rcases (by simpa using h : name = "true" ∨ name = "TRUE") with rfl | rfl <;> simp [keywords]
  case isFalse htrue =>
    split
    case isTrue h =>
      rcases (by simpa using h : name = "false" ∨ name = "FALSE") with rfl | rfl <;>
        simp [keywords]
    case isFalse hfalse =>
      split
      case isTrue h =>
        rcases (by simpa using h : name = "null" ∨ name = "NULL") with rfl | rfl <;>
          simp [keywords]
      case isFalse hnull =>
        refine .inr ⟨?_, rfl⟩
        intro e he
        simp only [Bool.or_eq_true, decide_eq_true_eq, not_or] at htrue hfalse hnull
        simp [keywords, htrue, hfalse, hnull] at he

/-- A keyword stands for its value. -/
lemma ofName_of_mem {name : String} (h : (name, e) ∈ keywords) : ofName name = e := by
  simp only [keywords, List.mem_cons, Prod.mk.injEq, List.not_mem_nil, or_false] at h
  rcases h with h | h | h | h | h | h
  all_goals
    obtain ⟨rfl, rfl⟩ := h
    rfl

/-- A name that is no keyword stands for an attribute. -/
lemma ofName_of_notMem {name : String} (h : ∀ e, (name, e) ∉ keywords) :
    ofName name = .ident name := by
  rcases mem_keywords_or name with hmem | ⟨-, heq⟩
  · exact absurd hmem (h _)
  · exact heq

/-- A name alone is derived as what it stands for. -/
lemma derives_ofName (name : String) : Derives inside .primary [.ident name] (ofName name) := by
  rcases mem_keywords_or name with hmem | ⟨hattribute, heq⟩
  · exact .keyword hmem
  · rw [heq]
    exact .ident hattribute

/-- A name alone is a formula, wherever it stands. -/
lemma derives_name (name : String) : Derives inside .formula [.ident name] (ofName name) :=
  .additive (.term (.unary (.primary (derives_ofName name))))

/-- No literal follows a minus sign exactly where the rest does not start with one. -/
lemma negativeLiteral?_eq_none :
    negativeLiteral? ts = none ↔ ¬ StartsWithLiteral (ts.map Placed.token) := by
  unfold StartsWithLiteral negativeLiteral?
  cases ts with
  | nil => simp
  | cons t others => cases ht : t.token <;> simp [ht]

/-! ### What readers take -/

/-- A reader of a level takes tokens from the front that the level derives. -/
def Takes (inside : Bool) (level : Level) (ts : List Placed) (e : Expr) (rest : List Placed) :
    Prop :=
  ∃ used, ts = used ++ rest ∧ Derives inside level (used.map Placed.token) e

/-- The loop of a level takes tokens from the front that go on with what derives `left`. -/
def Extends (inside : Bool) (level : Level) (left : Expr) (ts : List Placed) (e : Expr)
    (rest : List Placed) : Prop :=
  ∃ used, ts = used ++ rest ∧
    ∀ lead, Derives inside level lead left → Derives inside level (lead ++ used.map Placed.token) e

/-- A reader of arguments takes formulas with commas between them, and the parenthesis. -/
def TakesArguments (inside : Bool) (ts : List Placed) (es : List Expr) (rest : List Placed) :
    Prop :=
  ∃ used, ts = used ++ rest ∧ ∃ arguments : List (List Token × Expr),
    used.map Placed.token =
      List.intercalate [.comma] (arguments.map Prod.fst) ++ [.closeParen] ∧
    arguments.map Prod.snd = es ∧ ∀ a ∈ arguments, Derives inside .formula a.1 a.2

/-- A reader takes at least one token. -/
lemma Takes.length_lt (h : Takes inside level ts e rest) : rest.length < ts.length := by
  obtain ⟨used, rfl, hused⟩ := h
  obtain ⟨first, others, heq, -⟩ := hused.starts
  have hlength : used.length = others.length + 1 := by
    simpa using congrArg List.length heq
  rw [List.length_append]
  omega

/-- A level takes what a level above it derives from the same tokens. -/
lemma Takes.lift {level' : Level} (h : Takes inside level ts e rest)
    (hlift : ∀ tokens, Derives inside level tokens e → Derives inside level' tokens e) :
    Takes inside level' ts e rest := by
  obtain ⟨used, hts, hused⟩ := h
  exact ⟨used, hts, hlift _ hused⟩

/-- The first token alone, if the level derives it. -/
lemma Takes.one (h : Derives inside level [t.token] e) : Takes inside level (t :: ts) e ts :=
  ⟨[t], rfl, h⟩

/-- Two sums with a comparison between them are taken as a formula. -/
lemma Takes.comparison {op : ComparisonOp} {others : List Placed}
    (hleft : Takes inside .additive ts l (t :: others)) (ht : t.token = op.token)
    (hright : Takes inside .additive others r rest) :
    Takes inside .formula ts (.comparison op l r) rest := by
  obtain ⟨left, rfl, hl⟩ := hleft
  obtain ⟨right, rfl, hr⟩ := hright
  refine ⟨left ++ t :: right, by simp, ?_⟩
  rw [List.map_append, List.map_cons, ht]
  exact .comparison hl hr

/-- A loop that takes nothing. -/
lemma Extends.refl : Extends inside level l ts l ts := by
  refine ⟨[], rfl, ?_⟩
  intro lead hlead
  simpa using hlead

/-- What a loop goes on with is taken together with what was taken before it. -/
lemma Takes.extend (h : Takes inside level ts l rest) {rest' : List Placed}
    (hext : Extends inside level l rest e rest') : Takes inside level ts e rest' := by
  obtain ⟨used, rfl, hused⟩ := h
  obtain ⟨more, rfl, hmore⟩ := hext
  refine ⟨used ++ more, by simp, ?_⟩
  rw [List.map_append]
  exact hmore _ hused

/-- A loop goes on after an operation with an operand of the level below. -/
lemma Extends.step {op : ArithmeticOp} {below : Level} {others rest' : List Placed}
    (ht : t.token = op.token)
    (hjoin : ∀ lead right r, Derives inside level lead l → Derives inside below right r →
      Derives inside level (lead ++ op.token :: right) (.arithmetic op l r))
    (hright : Takes inside below others r rest)
    (hext : Extends inside level (.arithmetic op l r) rest e rest') :
    Extends inside level l (t :: others) e rest' := by
  obtain ⟨used, rfl, hused⟩ := hright
  obtain ⟨more, rfl, hmore⟩ := hext
  refine ⟨t :: (used ++ more), by simp, ?_⟩
  intro lead hlead
  have hmore := hmore _ (hjoin lead _ r hlead hused)
  rw [List.map_cons, List.map_append, ht]
  simpa using hmore

/-- A minus sign is taken together with the literal after it.

**Proof sketch.** Only a number and a length of time are literals that a minus sign belongs to. -/
lemma takes_negativeLiteral {literal : Expr} {others : List Placed} {rest : Fewer others}
    (ht : t.token = .minus) (h : negativeLiteral? others = some (literal, rest)) :
    Takes inside .unary (t :: others) literal rest.val := by
  unfold negativeLiteral? at h
  cases others with
  | nil => cases h
  | cons u others =>
    simp only at h
    split at h
    case h_1 n hu =>
      cases h
      refine ⟨[t, u], rfl, ?_⟩
      simp only [List.map_cons, List.map_nil, ht, hu]
      exact .negativeNumber n
    case h_2 d hu =>
      cases h
      refine ⟨[t, u], rfl, ?_⟩
      simp only [List.map_cons, List.map_nil, ht, hu]
      exact .negativeDuration d
    case h_3 => cases h

/-- A minus sign before what is no literal is taken as an opposite. -/
lemma Takes.negate {others : List Placed} (h : Takes true .unary others e rest)
    (ht : t.token = .minus) (hliteral : negativeLiteral? others = none) :
    Takes true .unary (t :: others) (.negate e) rest := by
  obtain ⟨used, rfl, hused⟩ := h
  refine ⟨t :: used, rfl, ?_⟩
  rw [List.map_cons, ht]
  refine .negate ?_ hused
  -- the first token taken is also the first of all that follows the sign
  obtain ⟨first, more, heq, -⟩ := hused.starts
  have hfirst := negativeLiteral?_eq_none.mp hliteral
  rw [List.map_append, heq, List.cons_append, startsWithLiteral_cons] at hfirst
  rwa [heq, startsWithLiteral_cons]

/-- A parenthesis that is closed is the first token. -/
lemma closeParen_eq_ok {found : Fewer ts} (h : closeParen stop ts = .ok found) :
    ∃ u, ts = u :: found.val ∧ u.token = .closeParen := by
  unfold closeParen at h
  cases ts with
  | nil => cases h
  | cons u others =>
    simp only at h
    split at h
    case isTrue hu =>
      cases h
      exact ⟨u, rfl, hu⟩
    case isFalse => cases h

/-- A formula in parentheses is taken with them. -/
lemma Takes.parentheses {u : Placed} {others : List Placed} (ht : t.token = .openParen)
    (h : Takes inside .formula others e (u :: rest)) (hu : u.token = .closeParen) :
    Takes inside .primary (t :: others) e rest := by
  obtain ⟨used, rfl, hused⟩ := h
  refine ⟨t :: (used ++ [u]), by simp, ?_⟩
  simp only [List.map_cons, List.map_append, List.map_nil, ht, hu]
  exact .parentheses hused

/-- The last argument and the parenthesis after it. -/
lemma TakesArguments.last {u : Placed} (h : Takes inside .formula ts e (u :: rest))
    (hu : u.token = .closeParen) : TakesArguments inside ts [e] rest := by
  obtain ⟨used, rfl, hused⟩ := h
  refine ⟨used ++ [u], by simp, [(used.map Placed.token, e)], ?_, rfl, ?_⟩
  · simp [hu]
  · intro a ha
    obtain rfl := List.mem_singleton.mp ha
    exact hused

/-- An argument, the comma after it and more arguments. -/
lemma TakesArguments.cons {u : Placed} {others : List Placed} {es : List Expr}
    (h : Takes inside .formula ts e (u :: others)) (hu : u.token = .comma)
    (hmore : TakesArguments inside others es rest) (hne : es ≠ []) :
    TakesArguments inside ts (e :: es) rest := by
  obtain ⟨used, rfl, hused⟩ := h
  obtain ⟨more, rfl, arguments, hmap, rfl, hall⟩ := hmore
  refine ⟨used ++ u :: more, by simp, (used.map Placed.token, e) :: arguments, ?_, rfl, ?_⟩
  · have hne' : arguments.map Prod.fst ≠ [] := by simpa using hne
    rw [List.map_append, List.map_cons, hmap, hu, List.map_cons,
      List.intercalate_cons_of_ne_nil hne']
    simp
  · intro a ha
    rcases List.mem_cons.mp ha with rfl | ha
    · exact hused
    · exact hall a ha

/-- A call is taken with its arguments. -/
lemma Takes.call {u : Placed} {others : List Placed} {name : String} {f : Function}
    {es : List Expr} (ht : t.token = .ident name) (hu : u.token = .openParen)
    (hname : name.map Char.toUpper = f.name)
    (h : TakesArguments (inside || f.allowsArithmetic) others es rest) (hcall : Call f es e) :
    Takes inside .primary (t :: u :: others) e rest := by
  obtain ⟨used, rfl, arguments, hmap, rfl, hall⟩ := h
  refine ⟨t :: u :: used, rfl, ?_⟩
  simp only [List.map_cons, ht, hu, hmap]
  exact .call hname hall hcall

/-! ### Soundness -/

mutual

/-- What the reader of a formula takes derives the tree that it returns.

**Proof sketch.** All readers at once, along their recursion: every reader that is called is given
fewer tokens, or as many and stands below the caller. What is left of the tokens gets fewer since no
level derives the empty sequence. -/
theorem bareFormula_sound {inside : Bool} {ts rest : List Placed} {e : Expr}
    (h : bareFormula stop inside ts = .ok (e, rest)) :
    Takes inside .formula ts e rest := by
  rw [bareFormula_eq] at h
  obtain ⟨⟨left, rest'⟩, hleft, h⟩ := Result.bind_eq_ok.mp h
  have takesLeft := bareAdditive_sound hleft
  cases rest' with
  | nil =>
    cases h
    exact takesLeft.lift fun _ => .additive
  | cons t others =>
    have hlt : others.length < ts.length := Nat.lt_of_succ_lt takesLeft.length_lt
    cases hop : comparisonOf? t.token with
    | none =>
      simp only [hop] at h
      cases h
      exact takesLeft.lift fun _ => .additive
    | some op =>
      simp only [hop] at h
      obtain ⟨⟨right, rest'⟩, hright, h⟩ := Result.bind_eq_ok.mp h
      cases h
      exact takesLeft.comparison (comparisonOf?_eq_some.mp hop) (bareAdditive_sound hright)
termination_by (ts.length, 6)

/-- The reader of a sum takes what the grammar derives. -/
theorem bareAdditive_sound {inside : Bool} {ts rest : List Placed} {e : Expr}
    (h : bareAdditive stop inside ts = .ok (e, rest)) :
    Takes inside .additive ts e rest := by
  rw [bareAdditive_eq] at h
  obtain ⟨⟨left, rest'⟩, hleft, h⟩ := Result.bind_eq_ok.mp h
  have takesLeft := bareTerm_sound hleft
  have hlt := takesLeft.length_lt
  exact (takesLeft.lift fun _ => .term).extend (bareSum_sound h)
termination_by (ts.length, 5)

/-- The loop over the terms of a sum takes what goes on with it.

**Proof sketch.** Without a sign of addition nothing is taken. Otherwise the sign, the term behind
it and what the loop takes after that are one step more. -/
theorem bareSum_sound {inside : Bool} {l e : Expr} {ts rest : List Placed}
    (h : bareSum stop inside l ts = .ok (e, rest)) :
    Extends inside .additive l ts e rest := by
  match ts, h with
  | [], h =>
    rw [bareSum_nil] at h
    cases h
    exact .refl
  | t :: others, h =>
    rw [bareSum_cons] at h
    cases hop : additiveOf? t.token with
    | none =>
      simp only [hop] at h
      cases h
      exact .refl
    | some op =>
      obtain ⟨hjoins, ht⟩ := additiveOf?_eq_some.mp hop
      cases inside with
      | false => simp [hop] at h
      | true =>
        simp only [hop, if_true] at h
        obtain ⟨⟨right, rest'⟩, hright, h⟩ := Result.bind_eq_ok.mp h
        have takesRight := bareTerm_sound hright
        have hlt := takesRight.length_lt
        exact .step ht (fun _ _ _ => .sum hjoins) takesRight (bareSum_sound h)
termination_by (ts.length, 0)

/-- The reader of a product takes what the grammar derives. -/
theorem bareTerm_sound {inside : Bool} {ts rest : List Placed} {e : Expr}
    (h : bareTerm stop inside ts = .ok (e, rest)) :
    Takes inside .term ts e rest := by
  rw [bareTerm_eq] at h
  obtain ⟨⟨left, rest'⟩, hleft, h⟩ := Result.bind_eq_ok.mp h
  have takesLeft := bareUnary_sound hleft
  have hlt := takesLeft.length_lt
  exact (takesLeft.lift fun _ => .unary).extend (bareProduct_sound h)
termination_by (ts.length, 4)

/-- The loop over the factors of a product takes what goes on with it.

**Proof sketch.** Without a sign of multiplication nothing is taken. Otherwise the sign, the factor
behind it and what the loop takes after that are one step more. -/
theorem bareProduct_sound {inside : Bool} {l e : Expr} {ts rest : List Placed}
    (h : bareProduct stop inside l ts = .ok (e, rest)) :
    Extends inside .term l ts e rest := by
  match ts, h with
  | [], h =>
    rw [bareProduct_nil] at h
    cases h
    exact .refl
  | t :: others, h =>
    rw [bareProduct_cons] at h
    cases hop : multiplicativeOf? t.token with
    | none =>
      simp only [hop] at h
      cases h
      exact .refl
    | some op =>
      obtain ⟨hjoins, ht⟩ := multiplicativeOf?_eq_some.mp hop
      cases inside with
      | false => simp [hop] at h
      | true =>
        simp only [hop, if_true] at h
        obtain ⟨⟨right, rest'⟩, hright, h⟩ := Result.bind_eq_ok.mp h
        have takesRight := bareUnary_sound hright
        have hlt := takesRight.length_lt
        exact .step ht (fun _ _ _ => .product hjoins) takesRight (bareProduct_sound h)
termination_by (ts.length, 0)

/-- The reader of an opposite takes what the grammar derives.

**Proof sketch.** A minus sign is taken with the literal behind it, or with the operand that it
stands before. Without one the operand is a primary. -/
theorem bareUnary_sound {inside : Bool} {ts rest : List Placed} {e : Expr}
    (h : bareUnary stop inside ts = .ok (e, rest)) :
    Takes inside .unary ts e rest := by
  match ts, h with
  | [], h =>
    rw [bareUnary_nil] at h
    cases h
  | t :: others, h =>
    rw [bareUnary_cons] at h
    by_cases hminus : t.token = .minus
    · rw [if_pos hminus] at h
      cases hliteral : negativeLiteral? others with
      | some found =>
        simp only [hliteral] at h
        cases h
        exact takes_negativeLiteral hminus hliteral
      | none =>
        cases inside with
        | false => simp [hliteral] at h
        | true =>
          simp only [hliteral, if_true] at h
          obtain ⟨⟨body, rest'⟩, hbody, h⟩ := Result.bind_eq_ok.mp h
          cases h
          exact (bareUnary_sound hbody).negate hminus hliteral
    · rw [if_neg hminus] at h
      exact (barePrimary_sound h).lift fun _ => .primary
termination_by (ts.length, 3)

/-- The reader of literals, names, calls and parentheses takes what the grammar derives.

**Proof sketch.** By the first token: literals are taken alone, parentheses with the formula between
them, and a name with its arguments if it is called. -/
theorem barePrimary_sound {inside : Bool} {ts rest : List Placed} {e : Expr}
    (h : barePrimary stop inside ts = .ok (e, rest)) :
    Takes inside .primary ts e rest := by
  match ts, h with
  | [], h =>
    rw [barePrimary_nil] at h
    cases h
  | t :: others, h =>
    rw [barePrimary_cons] at h
    cases ht : t.token with
    | number n =>
      simp only [ht] at h
      cases h
      exact .one (ht ▸ .number n)
    | duration d =>
      simp only [ht] at h
      cases h
      exact .one (ht ▸ .duration d)
    | text s =>
      simp only [ht] at h
      cases h
      exact .one (ht ▸ .text s)
    | openParen =>
      simp only [ht] at h
      obtain ⟨⟨body, rest'⟩, hbody, h⟩ := Result.bind_eq_ok.mp h
      obtain ⟨found, hclose, h⟩ := Result.bind_eq_ok.mp h
      cases h
      obtain ⟨u, hrest, hu⟩ := closeParen_eq_ok hclose
      have takesBody := bareFormula_sound hbody
      rw [show rest' = u :: found.val from hrest] at takesBody
      exact .parentheses ht takesBody hu
    | ident name =>
      simp only [ht] at h
      match hothers : others, h with
      | [], h =>
        cases h
        exact .one (ht ▸ derives_ofName name)
      | u :: inner, h =>
        have hlt : inner.length < others.length := by simp [hothers]
        by_cases hu : u.token = .openParen
        · simp only [hu, if_true] at h
          unfold bareCall at h
          cases hname : Function.ofName? name with
          | none => simp [hname] at h
          | some f =>
            simp only [hname] at h
            obtain ⟨⟨es, rest'⟩, hes, h⟩ := Result.bind_eq_ok.mp h
            cases hcall : ofCall? f es with
            | none => simp [hcall] at h
            | some call =>
              simp only [hcall] at h
              cases h
              have hcall := ofCall?_eq_some.mp hcall
              exact .call ht hu (Function.ofName?_eq_some.mp hname)
                (bareArguments_sound hes hcall.ne_nil) hcall
        · simp only [hu, if_false] at h
          cases h
          exact .one (ht ▸ derives_ofName name)
    | _ => simp [ht] at h
termination_by (ts.length, 2)

/-- Arguments that a function takes are taken as such; there is at least one. -/
theorem bareArguments_sound {inside : Bool} {ts rest : List Placed} {es : List Expr}
    (h : bareArguments stop inside ts = .ok (es, rest)) (hne : es ≠ []) :
    TakesArguments inside ts es rest := by
  match ts, h with
  | [], h =>
    rw [bareArguments_nil] at h
    exact (bareArgumentList_sound h).1
  | t :: others, h =>
    rw [bareArguments_cons] at h
    by_cases hclose : t.token = .closeParen
    · rw [if_pos hclose] at h
      cases h
      exact absurd rfl hne
    · rw [if_neg hclose] at h
      exact (bareArgumentList_sound h).1
termination_by (ts.length, 8)

/-- The reader of arguments takes formulas with commas between them, and at least one.

**Proof sketch.** The first argument is taken as a formula. Behind a comma the others are taken, and
behind the parenthesis there are none. -/
theorem bareArgumentList_sound {inside : Bool} {ts rest : List Placed} {es : List Expr}
    (h : bareArgumentList stop inside ts = .ok (es, rest)) :
    TakesArguments inside ts es rest ∧ es ≠ [] := by
  rw [bareArgumentList_eq] at h
  obtain ⟨⟨argument, rest'⟩, hargument, h⟩ := Result.bind_eq_ok.mp h
  have takes := bareFormula_sound hargument
  cases rest' with
  | nil => cases h
  | cons t others =>
    have hlt : others.length < ts.length := Nat.lt_of_succ_lt takes.length_lt
    by_cases hcomma : t.token = .comma
    · simp only [hcomma, if_true] at h
      obtain ⟨⟨more, rest'⟩, hmore, h⟩ := Result.bind_eq_ok.mp h
      cases h
      obtain ⟨takesMore, hne⟩ := bareArgumentList_sound hmore
      exact ⟨.cons takes hcomma takesMore hne, List.cons_ne_nil _ _⟩
    · by_cases hclose : t.token = .closeParen
      · simp only [hclose, reduceCtorEq, if_false, if_true] at h
        cases h
        exact ⟨.last takes hclose, List.cons_ne_nil _ _⟩
      · simp [hcomma, hclose] at h
termination_by (ts.length, 7)

end

end Cohort.Formula
