import Mathlib.Logic.ExistsUnique
import Mathlib.Tactic.Lemma
import Cohort.Proofs.Formula.Soundness
set_option relaxedAutoImplicit false
set_option autoImplicit false

/-!
# The parser accepts its grammar

What a level derives is read as the tree that it derives, provided that what follows does not go on
with it. Together with the soundness of the readers this makes the parser decide the grammar, and
the grammar unambiguous.

## Main definitions

* `Cohort.Formula.Level.stopsAt` — the tokens that end what a level derives.
* `Cohort.Formula.IsRead` — whether tokens are read as a tree before such tokens.

## Main results

* `Cohort.Formula.Derives.isRead` — what a level derives is read as its tree.
* `Cohort.Formula.Derives.unique` — a formula derives one tree at most.
* `Cohort.Formula.parseTokens_eq_ok`, `Cohort.Formula.parse_eq_ok` — tokens and texts are accepted
  if and only if they derive a tree, which is the tree that the parser builds.
* `Cohort.Formula.parser_decides_grammar` — all of this for the whole parser.
-/

namespace Cohort.Formula

variable {stop : Nat} {inside : Bool} {level : Level} {e l r : Expr} {t : Placed}
  {tokens left right : List Token} {ts rest : List Placed}

/-! ### Where readers stop -/

/-- Whether a token ends what a level derives. The levels of sums and products end before the tokens
with which their loops go on, since a derivation of them may be followed by such a token. -/
def Level.stopsAt : Level → Token → Bool
  | .formula, token =>
    token ≠ .openParen && (multiplicativeOf? token).isNone && (additiveOf? token).isNone &&
      (comparisonOf? token).isNone
  | .additive, token => token ≠ .openParen && (multiplicativeOf? token).isNone
  | _, token => token ≠ .openParen

/-- Whether a level stops before what follows, which may be nothing. -/
def Level.StopsBefore (level : Level) (rest : List Placed) : Prop :=
  ∀ t ∈ rest.head?, level.stopsAt t.token = true

/-- A level stops before tokens if it stops at the first one. -/
lemma Level.stopsBefore_cons : level.StopsBefore (t :: rest) ↔ level.stopsAt t.token = true := by
  simp [Level.StopsBefore]

/-- Every level stops at the end. -/
lemma Level.stopsBefore_nil : level.StopsBefore [] := by
  intro t ht
  cases ht

/-- A formula ends before a comma and before a parenthesis that closes. -/
lemma Level.formula_stopsBefore (h : t.token = .comma ∨ t.token = .closeParen) :
    Level.formula.StopsBefore (t :: rest) := by
  rw [Level.stopsBefore_cons]
  rcases h with h | h
  · rw [h]
    rfl
  · rw [h]
    rfl

/-- A level stops where a level above it does. -/
lemma Level.StopsBefore.weaken {level' : Level} (h : level.StopsBefore rest)
    (hweaken : ∀ token, level.stopsAt token = true → level'.stopsAt token = true) :
    level'.StopsBefore rest :=
  fun t ht => hweaken _ (h t ht)

/-- What a reader of a level does with tokens that the level derives: the loops of sums and products
go on with what follows. -/
def Reads (stop : Nat) (inside : Bool) :
    Level → List Placed → Expr → List Placed → Prop
  | .formula, ts, e, rest => bareFormula stop inside ts = .ok (e, rest)
  | .additive, ts, e, rest => bareAdditive stop inside ts = bareSum stop inside e rest
  | .term, ts, e, rest => bareTerm stop inside ts = bareProduct stop inside e rest
  | .unary, ts, e, rest => bareUnary stop inside ts = .ok (e, rest)
  | .primary, ts, e, rest => barePrimary stop inside ts = .ok (e, rest)

/-- Whether tokens are read at a level as a tree, wherever they stand and whatever follows that
the level stops before. -/
def IsRead (stop : Nat) (inside : Bool) (level : Level) (tokens : List Token) (e : Expr) : Prop :=
  ∀ ts rest, ts.map Placed.token = tokens → level.StopsBefore rest →
    Reads stop inside level (ts ++ rest) e rest

/-- A sum ends where no term follows. -/
lemma bareSum_stop (h : Level.formula.StopsBefore rest) :
    bareSum stop inside l rest = .ok (l, rest) := by
  cases rest with
  | nil => exact bareSum_nil
  | cons t others =>
    have ht := Level.stopsBefore_cons.mp h
    rw [bareSum_cons]
    cases hop : additiveOf? t.token with
    | none => rfl
    | some op => simp [Level.stopsAt, hop] at ht

/-- A product ends where no factor follows. -/
lemma bareProduct_stop (h : Level.additive.StopsBefore rest) :
    bareProduct stop inside l rest = .ok (l, rest) := by
  cases rest with
  | nil => exact bareProduct_nil
  | cons t others =>
    have ht := Level.stopsBefore_cons.mp h
    rw [bareProduct_cons]
    cases hop : multiplicativeOf? t.token with
    | none => rfl
    | some op => simp [Level.stopsAt, hop] at ht

/-- Every level stops before what a formula stops before. -/
lemma Level.StopsBefore.of_formula (h : Level.formula.StopsBefore rest) (level : Level) :
    level.StopsBefore rest := by
  refine h.weaken ?_
  intro token htoken
  cases level <;> simp_all [Level.stopsAt]

/-- A term ends where a sum does. -/
lemma Level.StopsBefore.term_of_additive (h : Level.additive.StopsBefore rest) :
    Level.term.StopsBefore rest := by
  refine h.weaken ?_
  intro token htoken
  simp_all [Level.stopsAt]

/-! ### Comparisons, sums and products -/

/-- Where tokens with an operator between two parts stand, the parts stand around it. -/
lemma split_operator {operator : Token}
    (h : ts.map Placed.token = left ++ operator :: right) :
    ∃ before t after, ts = before ++ t :: after ∧ before.map Placed.token = left ∧
      t.token = operator ∧ after.map Placed.token = right := by
  obtain ⟨before, others, rfl, hbefore, hothers⟩ := List.map_eq_append_iff.mp h
  obtain ⟨t, after, rfl, ht, hafter⟩ := List.map_eq_cons_iff.mp hothers
  exact ⟨before, t, after, rfl, hbefore, ht, hafter⟩

/-- A comparison is read if both of its sides are.

**Proof sketch.** The left side is read up to the sign of the comparison, since a sum ends there,
and the right side up to where the formula ends. -/
lemma IsRead.comparison {op : ComparisonOp} (hleft : IsRead stop inside .additive left l)
    (hright : IsRead stop inside .additive right r) :
    IsRead stop inside .formula (left ++ op.token :: right) (.comparison op l r) := by
  intro ts rest hts hrest
  obtain ⟨before, t, after, rfl, hbefore, ht, hafter⟩ := split_operator hts
  have hstop : Level.additive.StopsBefore (t :: (after ++ rest)) := by
    rw [Level.stopsBefore_cons, ht]
    cases op <;> rfl
  have hl : bareAdditive stop inside (before ++ t :: (after ++ rest)) =
      .ok (l, t :: (after ++ rest)) := by
    rw [hleft before _ hbefore hstop, bareSum_cons, ht]
    cases op <;> rfl
  have hr : bareAdditive stop inside (after ++ rest) = .ok (r, rest) := by
    rw [hright after rest hafter (hrest.of_formula _), bareSum_stop hrest]
  have hop : comparisonOf? t.token = some op := comparisonOf?_eq_some.mpr ht
  change bareFormula stop inside _ = _
  rw [List.append_assoc, List.cons_append, bareFormula_eq, hl]
  simp only [bind, Except.bind, hop, hr]
  rfl

/-- A sum alone is a formula: it is closed where the formula ends.

**Proof sketch.** The loop of the sum stops where the formula ends, and no comparison stands
there. -/
lemma IsRead.additive (h : IsRead stop inside .additive tokens e) :
    IsRead stop inside .formula tokens e := by
  intro ts rest hts hrest
  have he : bareAdditive stop inside (ts ++ rest) = .ok (e, rest) := by
    rw [h ts rest hts (hrest.of_formula _), bareSum_stop hrest]
  change bareFormula stop inside _ = _
  rw [bareFormula_eq, he]
  cases rest with
  | nil => rfl
  | cons t others =>
    have ht := Level.stopsBefore_cons.mp hrest
    cases hop : comparisonOf? t.token with
    | none =>
      simp only [bind, Except.bind, hop]
      rfl
    | some op => simp [Level.stopsAt, hop] at ht

/-- A sum or a difference is read if both of its sides are, inside a calculation.

**Proof sketch.** The left side is read up to the operator, which stops it, and the right one up to
where the whole sum stops. -/
lemma IsRead.sum {op : ArithmeticOp} (hop : op.joinsTerms = true)
    (hleft : IsRead stop true .additive left l) (hright : IsRead stop true .term right r) :
    IsRead stop true .additive (left ++ op.token :: right) (.arithmetic op l r) := by
  intro ts rest hts hrest
  obtain ⟨before, t, after, rfl, hbefore, ht, hafter⟩ := split_operator hts
  have hstop : Level.additive.StopsBefore (t :: (after ++ rest)) := by
    rw [Level.stopsBefore_cons, ht]
    cases op with
    | add | subtract => rfl
    | multiply | divide => cases hop
  have hr : bareTerm stop true (after ++ rest) = .ok (r, rest) := by
    rw [hright after rest hafter hrest.term_of_additive, bareProduct_stop hrest]
  have hop' : additiveOf? t.token = some op := additiveOf?_eq_some.mpr ⟨hop, ht⟩
  change bareAdditive stop true _ = _
  rw [List.append_assoc, List.cons_append, hleft before _ hbefore hstop, bareSum_cons, hop']
  simp only [if_true, bind, Except.bind, hr]

/-- A term alone is a sum, with which the loop of sums may go on. -/
lemma IsRead.term (h : IsRead stop inside .term tokens e) :
    IsRead stop inside .additive tokens e := by
  intro ts rest hts hrest
  have he : bareTerm stop inside (ts ++ rest) = .ok (e, rest) := by
    rw [h ts rest hts hrest.term_of_additive, bareProduct_stop hrest]
  change bareAdditive stop inside _ = _
  rw [bareAdditive_eq, he]
  rfl

/-- A product or a quotient is read if both of its sides are, inside a calculation.

**Proof sketch.** The left side is read up to the operator, which stops it, and the right one up to
where the whole product stops. -/
lemma IsRead.product {op : ArithmeticOp} (hop : op.joinsTerms = false)
    (hleft : IsRead stop true .term left l) (hright : IsRead stop true .unary right r) :
    IsRead stop true .term (left ++ op.token :: right) (.arithmetic op l r) := by
  intro ts rest hts hrest
  obtain ⟨before, t, after, rfl, hbefore, ht, hafter⟩ := split_operator hts
  have hstop : Level.term.StopsBefore (t :: (after ++ rest)) := by
    rw [Level.stopsBefore_cons, ht]
    cases op <;> rfl
  have hr : bareUnary stop true (after ++ rest) = .ok (r, rest) := hright after rest hafter hrest
  have hop' : multiplicativeOf? t.token = some op := multiplicativeOf?_eq_some.mpr ⟨hop, ht⟩
  change bareTerm stop true _ = _
  rw [List.append_assoc, List.cons_append, hleft before _ hbefore hstop, bareProduct_cons, hop']
  simp only [if_true, bind, Except.bind, hr]

/-- A factor alone is a term, with which the loop of products may go on. -/
lemma IsRead.unary (h : IsRead stop inside .unary tokens e) :
    IsRead stop inside .term tokens e := by
  intro ts rest hts hrest
  have he : bareUnary stop inside (ts ++ rest) = .ok (e, rest) := h ts rest hts hrest
  change bareTerm stop inside _ = _
  rw [bareTerm_eq, he]
  rfl

/-! ### Signs -/

/-- A minus sign and the literal after it are read together. -/
lemma isRead_negativeLiteral {token : Token} {literal : Expr}
    (h : ∀ u others, u.token = token →
      ∃ fewer, negativeLiteral? (u :: others) = some (literal, ⟨others, fewer⟩)) :
    IsRead stop inside .unary [.minus, token] literal := by
  intro ts rest hts _
  obtain ⟨t, others, rfl, ht, hothers⟩ := List.map_eq_cons_iff.mp hts
  obtain ⟨u, others, rfl, hu, hothers⟩ := List.map_eq_cons_iff.mp hothers
  obtain rfl := List.map_eq_nil_iff.mp hothers
  obtain ⟨fewer, hliteral⟩ := h u rest hu
  change bareUnary stop inside (t :: u :: rest) = _
  rw [bareUnary_cons, if_pos ht, hliteral]

/-- An opposite is read if its operand is, unless the minus sign belongs to a literal.

**Proof sketch.** The minus sign is not read as a part of a literal, so what follows it is read as
its operand. -/
lemma IsRead.negate (hstarts : ∃ first others, tokens = first :: others)
    (hliteral : ¬ StartsWithLiteral tokens) (h : IsRead stop true .unary tokens e) :
    IsRead stop true .unary (.minus :: tokens) (.negate e) := by
  intro ts rest hts hrest
  obtain ⟨t, others, rfl, ht, hothers⟩ := List.map_eq_cons_iff.mp hts
  have hnone : negativeLiteral? (others ++ rest) = none := by
    obtain ⟨first, more, rfl⟩ := hstarts
    rw [startsWithLiteral_cons] at hliteral
    rwa [negativeLiteral?_eq_none, List.map_append, hothers, List.cons_append,
      startsWithLiteral_cons]
  have hbody : bareUnary stop true (others ++ rest) = .ok (e, rest) := h others rest hothers hrest
  change bareUnary stop true (t :: (others ++ rest)) = _
  rw [bareUnary_cons, if_pos ht, hnone]
  simp only [if_true, hbody]
  rfl

/-- What needs no parentheses is a factor without signs. -/
lemma IsRead.primary (hstarts : ∃ first others, tokens = first :: others ∧ first ≠ .minus)
    (h : IsRead stop inside .primary tokens e) : IsRead stop inside .unary tokens e := by
  intro ts rest hts hrest
  obtain ⟨first, more, rfl, hfirst⟩ := hstarts
  have he := h ts rest hts hrest
  obtain ⟨t, others, rfl, ht, -⟩ := List.map_eq_cons_iff.mp hts
  change bareUnary stop inside (t :: (others ++ rest)) = _
  rw [bareUnary_cons, if_neg (by rwa [ht])]
  exact he

/-! ### Literals, names and parentheses -/

/-- A token that needs no parentheses is read alone. -/
lemma isRead_one {token : Token} (h : ∀ t others, t.token = token →
      Level.primary.StopsBefore others → barePrimary stop inside (t :: others) = .ok (e, others)) :
    IsRead stop inside .primary [token] e := by
  intro ts rest hts hrest
  obtain ⟨t, others, rfl, ht, hothers⟩ := List.map_eq_cons_iff.mp hts
  obtain rfl := List.map_eq_nil_iff.mp hothers
  exact h t rest ht hrest

/-- A name before which no parenthesis opens is not called. -/
lemma isRead_ident (name : String) :
    IsRead stop inside .primary [.ident name] (ofName name) := by
  refine isRead_one ?_
  intro t others ht hothers
  rw [barePrimary_cons, ht]
  cases others with
  | nil => rfl
  | cons u inner =>
    have hstop := Level.stopsBefore_cons.mp hothers
    have hu : u.token ≠ .openParen := by simpa [Level.stopsAt] using hstop
    simp only [if_neg hu]

/-- A formula in parentheses is read if the formula is. -/
lemma IsRead.parentheses (h : IsRead stop inside .formula tokens e) :
    IsRead stop inside .primary (.openParen :: (tokens ++ [.closeParen])) e := by
  intro ts rest hts _
  obtain ⟨t, others, rfl, ht, hothers⟩ := List.map_eq_cons_iff.mp hts
  obtain ⟨body, u, after, rfl, hbody, hu, hafter⟩ := split_operator hothers
  obtain rfl := List.map_eq_nil_iff.mp hafter
  have he : bareFormula stop inside (body ++ u :: rest) = .ok (e, u :: rest) :=
    h body _ hbody (Level.formula_stopsBefore (.inr hu))
  change barePrimary stop inside _ = _
  rw [List.cons_append, List.append_assoc, List.singleton_append, barePrimary_cons, ht]
  simp only [he, bind, Except.bind, closeParen, if_pos hu]
  rfl

/-! ### Calls -/

/-- Arguments with commas between them are read up to and with the parenthesis after them.

**Proof sketch.** Induction on the arguments. Each is read up to its comma, or the last one up to
the parenthesis, since a formula ends before both. -/
lemma bareArgumentList_complete {arguments : List (List Token × Expr)} (hne : arguments ≠ [])
    (hall : ∀ a ∈ arguments, IsRead stop inside .formula a.1 a.2)
    (hts : ts.map Placed.token =
      List.intercalate [.comma] (arguments.map Prod.fst) ++ [.closeParen]) :
    bareArgumentList stop inside (ts ++ rest) = .ok (arguments.map Prod.snd, rest) := by
  induction arguments generalizing ts with
  | nil => exact absurd rfl hne
  | cons a more ih =>
    have ha := hall a List.mem_cons_self
    cases more with
    | nil =>
      obtain ⟨body, u, after, rfl, hbody, hu, hafter⟩ := split_operator hts
      obtain rfl := List.map_eq_nil_iff.mp hafter
      have he : bareFormula stop inside (body ++ u :: rest) = .ok (a.2, u :: rest) :=
        ha body _ (by simpa using hbody) (Level.formula_stopsBefore (.inr hu))
      rw [List.append_assoc, List.singleton_append, bareArgumentList_eq, he]
      simp only [bind, Except.bind, hu, reduceCtorEq, if_false, if_true]
      rfl
    | cons b more =>
      rw [List.map_cons, List.map_cons, List.intercalate_cons_cons, List.append_assoc,
        List.append_assoc, List.singleton_append] at hts
      obtain ⟨body, u, after, rfl, hbody, hu, hafter⟩ := split_operator hts
      have he : bareFormula stop inside (body ++ u :: (after ++ rest)) =
          .ok (a.2, u :: (after ++ rest)) :=
        ha body _ hbody (Level.formula_stopsBefore (.inl hu))
      have hmore : bareArgumentList stop inside (after ++ rest) =
          .ok ((b :: more).map Prod.snd, rest) :=
        ih (List.cons_ne_nil _ _) (fun c hc => hall c (List.mem_cons_of_mem _ hc)) hafter
      rw [List.append_assoc, List.cons_append, bareArgumentList_eq, he]
      simp only [bind, Except.bind, hu, if_true, hmore]
      rfl

/-- The tokens of arguments start with those of the first. -/
lemma starts_arguments {arguments : List (List Token × Expr)} (hne : arguments ≠ [])
    (hall : ∀ a ∈ arguments, ∃ first others, a.1 = first :: others ∧ first ≠ .closeParen) :
    ∃ first others, List.intercalate [.comma] (arguments.map Prod.fst) ++ [.closeParen] =
      first :: others ∧ first ≠ .closeParen := by
  cases arguments with
  | nil => exact absurd rfl hne
  | cons a more =>
    obtain ⟨first, others, ha, hfirst⟩ := hall a List.mem_cons_self
    cases more with
    | nil => exact ⟨first, others ++ [.closeParen], by simp [ha], hfirst⟩
    | cons b more =>
      rw [List.map_cons, List.map_cons, List.intercalate_cons_cons, ha]
      exact ⟨first, _, rfl, hfirst⟩

/-- A call is read if its arguments are and the function takes them.

**Proof sketch.** The name is followed by the parenthesis, and the first argument does not start
with one that closes. So the arguments are read as a list, and the function takes them. -/
lemma IsRead.call {name : String} {f : Function} {arguments : List (List Token × Expr)}
    (hname : name.map Char.toUpper = f.name)
    (hstarts : ∀ a ∈ arguments, ∃ first others, a.1 = first :: others ∧ first ≠ .closeParen)
    (hall : ∀ a ∈ arguments, IsRead stop (inside || f.allowsArithmetic) .formula a.1 a.2)
    (hcall : Call f (arguments.map Prod.snd) e) :
    IsRead stop inside .primary
      (.ident name :: .openParen ::
        (List.intercalate [.comma] (arguments.map Prod.fst) ++ [.closeParen])) e := by
  intro ts rest hts _
  obtain ⟨t, others, rfl, ht, hothers⟩ := List.map_eq_cons_iff.mp hts
  obtain ⟨u, inner, rfl, hu, hinner⟩ := List.map_eq_cons_iff.mp hothers
  have hne : arguments ≠ [] := by simpa using hcall.ne_nil
  have hread : bareArguments stop (inside || f.allowsArithmetic) (inner ++ rest) =
      .ok (arguments.map Prod.snd, rest) := by
    rw [← bareArgumentList_complete hne hall hinner]
    obtain ⟨first, more, hfirst, hclose⟩ := starts_arguments hne hstarts
    obtain ⟨v, inner, rfl, hv, -⟩ := List.map_eq_cons_iff.mp (hinner.trans hfirst)
    rw [List.cons_append, bareArguments_cons, if_neg (by rwa [hv])]
  change barePrimary stop inside (t :: u :: (inner ++ rest)) = _
  rw [barePrimary_cons, ht]
  simp only [if_pos hu, bareCall, Function.ofName?_eq_some.mpr hname, hread, bind, Except.bind,
    ofCall?_eq_some.mpr hcall]
  rfl

/-! ### Completeness -/

/-- What needs no parentheses does not start with a sign. -/
lemma Derives.starts_primary (h : Derives inside .primary tokens e) :
    ∃ first others, tokens = first :: others ∧ first ≠ .minus := by
  cases h <;> exact ⟨_, _, rfl, Token.noConfusion⟩

/-- What a level derives is read as its tree.

**Proof sketch.** By induction on the derivation, with one lemma for each production. The claim for
sums and products leaves their loops open, so that it can be used both for a sum that ends and for
one that goes on. -/
theorem Derives.isRead (h : Derives inside level tokens e) : IsRead stop inside level tokens e := by
  induction h with
  | comparison _ _ hleft hright => exact hleft.comparison hright
  | additive _ ih => exact ih.additive
  | sum hop _ _ hleft hright => exact hleft.sum hop hright
  | term _ ih => exact ih.term
  | product hop _ _ hleft hright => exact hleft.product hop hright
  | unary _ ih => exact ih.unary
  | negativeNumber n =>
    refine isRead_negativeLiteral ?_
    intro u others hu
    exact ⟨by simp, by simp [negativeLiteral?, hu]⟩
  | negativeDuration d =>
    refine isRead_negativeLiteral ?_
    intro u others hu
    exact ⟨by simp, by simp [negativeLiteral?, hu]⟩
  | negate hliteral h ih =>
    obtain ⟨first, others, heq, -⟩ := h.starts
    exact ih.negate ⟨first, others, heq⟩ hliteral
  | primary h ih => exact ih.primary h.starts_primary
  | number n => exact isRead_one fun t others ht _ => by rw [barePrimary_cons, ht]
  | duration d => exact isRead_one fun t others ht _ => by rw [barePrimary_cons, ht]
  | text s => exact isRead_one fun t others ht _ => by rw [barePrimary_cons, ht]
  | @keyword _ name _ h => exact ofName_of_mem h ▸ isRead_ident name
  | @ident _ name h => exact ofName_of_notMem h ▸ isRead_ident name
  | parentheses _ ih => exact ih.parentheses
  | call hname harguments hcall ih =>
    exact .call hname (fun a ha => (harguments a ha).starts) ih hcall

/-- A formula derives one tree at most: it is read as each tree that it derives.

**Proof sketch.** The tokens stand at some places. There they are read as both trees
(`Derives.isRead`), and reading gives one result. -/
theorem Derives.unique {e' : Expr} (h : Derives inside .formula tokens e)
    (h' : Derives inside .formula tokens e') : e = e' := by
  obtain ⟨ts, rfl⟩ : ∃ ts : List Placed, tokens = ts.map Placed.token :=
    ⟨tokens.map (Placed.mk · 0), by simp [Function.comp_def]⟩
  have hread : bareFormula 0 inside (ts ++ []) = .ok (e, []) :=
    h.isRead ts [] rfl Level.stopsBefore_nil
  have hread' : bareFormula 0 inside (ts ++ []) = .ok (e', []) :=
    h'.isRead ts [] rfl Level.stopsBefore_nil
  rw [hread] at hread'
  cases hread'
  rfl

/-! ### The language of the parser -/

/-- Tokens are read as a tree if and only if they derive it.

**Proof sketch.** What is read was derived (`bareFormula_sound`), and all tokens were used. What is
derived is read up to the end (`Derives.isRead`), and it has a first token. -/
theorem parseTokens_eq_ok :
    parseTokens stop ts = .ok e ↔ Derives false .formula (ts.map Placed.token) e := by
  constructor
  · intro h
    cases ts with
    | nil => cases h
    | cons t others =>
      rw [parseTokens_cons] at h
      obtain ⟨⟨found, rest⟩, hread, h⟩ := Result.bind_eq_ok.mp h
      cases rest with
      | cons u rest => cases h
      | nil =>
        cases h
        obtain ⟨used, hused, hderives⟩ := bareFormula_sound hread
        rw [hused, List.append_nil]
        exact hderives
  · intro h
    have hread : bareFormula stop false (ts ++ []) = .ok (e, []) :=
      h.isRead ts [] rfl Level.stopsBefore_nil
    obtain ⟨first, others, heq, -⟩ := h.starts
    obtain ⟨t, others, rfl, -, -⟩ := List.map_eq_cons_iff.mp heq
    rw [List.append_nil] at hread
    rw [parseTokens_cons, hread]
    rfl

/-- Lexemes are placed if and only if each of them spells a token.

**Proof sketch.** Induction on the lexemes. The first one is placed if it spells a token, and the
others are placed on their own. -/
lemma placed_eq_ok {ls : List Lexeme} :
    (∃ ts, placed ls = .ok ts ∧ ts.map Placed.token = tokens) ↔
      ls.map Lexeme.token? = tokens.map some := by
  unfold placed
  induction ls generalizing tokens with
  | nil =>
    constructor
    · rintro ⟨ts, hts, rfl⟩
      cases hts
      rfl
    · intro h
      obtain rfl := List.map_eq_nil_iff.mp h.symm
      exact ⟨[], rfl, rfl⟩
  | cons l ls ih =>
    rw [List.mapM_cons, List.map_cons]
    -- a lexeme that spells no token ends the whole list
    cases hl : l.token? with
    | none =>
      constructor
      · rintro ⟨ts, hts, -⟩
        cases hts
      · intro h
        cases tokens <;> simp at h
    | some token =>
      constructor
      · rintro ⟨ts, hts, rfl⟩
        simp only [Result.bind_eq_ok, Result.pure_eq_ok] at hts
        obtain ⟨t, ht, ts, hts, rfl⟩ := hts
        cases ht
        rw [ih.mp ⟨ts, hts, rfl⟩]
        rfl
      · intro h
        cases tokens with
        | nil => cases h
        | cons token' tokens =>
          simp only [List.map_cons, List.cons.injEq, Option.some.injEq] at h
          obtain ⟨rfl, hls⟩ := h
          obtain ⟨ts, hts, rfl⟩ := ih.mpr hls
          refine ⟨⟨token, l.start⟩ :: ts, ?_, rfl⟩
          rw [hts]
          rfl

/-- A text is read as a tree if and only if its lexemes spell tokens that derive it. -/
theorem parse_eq_ok {source : String} :
    parse source = .ok e ↔ ∃ tokens, (lexemes source).map Lexeme.token? = tokens.map some ∧
      Derives false .formula tokens e := by
  unfold parse
  rw [Result.bind_eq_ok]
  constructor
  · rintro ⟨ts, hts, hparse⟩
    exact ⟨ts.map Placed.token, placed_eq_ok.mp ⟨ts, hts, rfl⟩, parseTokens_eq_ok.mp hparse⟩
  · rintro ⟨tokens, hls, hderives⟩
    obtain ⟨ts, hts, rfl⟩ := placed_eq_ok.mpr hls
    exact ⟨ts, hts, parseTokens_eq_ok.mpr hderives⟩

/-- The parser accepts exactly what its grammar derives and builds the tree that it prescribes, from
tokens and from texts, and the grammar prescribes one tree for what it derives. -/
theorem parser_decides_grammar :
    (∀ stop ts e, parseTokens stop ts = .ok e ↔ Derives false .formula (ts.map Placed.token) e) ∧
    (∀ source e, parse source = .ok e ↔
      ∃ tokens, (lexemes source).map Lexeme.token? = tokens.map some ∧
        Derives false .formula tokens e) ∧
    ∀ tokens, (∃ e, Derives false .formula tokens e) → ∃! e, Derives false .formula tokens e := by
  refine ⟨fun _ _ _ => parseTokens_eq_ok, fun _ _ => parse_eq_ok, ?_⟩
  rintro tokens ⟨e, he⟩
  refine ⟨e, he, ?_⟩
  intro e' he'
  exact he'.unique he

/-- The formula `-5 == math(a - b - c)`, whose differences associate to the left, has one tree. -/
theorem comparison_of_differences :
    (∃ e, Derives false .formula [.minus, .number 5, .equal, .ident "math", .openParen, .ident "a",
      .minus, .ident "b", .minus, .ident "c", .closeParen] e) ∧
    ∃! e, Derives false .formula [.minus, .number 5, .equal, .ident "math", .openParen, .ident "a",
      .minus, .ident "b", .minus, .ident "c", .closeParen] e := by
  have term : ∀ name ∈ ["a", "b", "c"], Derives true .term [.ident name] (.ident name) := by
    intro name hname
    refine .unary (.primary (.ident ?_))
    intro e he
    simp only [List.mem_cons, List.not_mem_nil, or_false] at hname
    rcases hname with rfl | rfl | rfl <;> simp [keywords] at he
  have first : Derives true .additive ([.ident "a"] ++ ArithmeticOp.subtract.token :: [.ident "b"])
      (.arithmetic .subtract (.ident "a") (.ident "b")) :=
    .sum rfl (.term (term "a" (by simp))) (term "b" (by simp))
  have body : Derives true .formula
      ([.ident "a", .minus, .ident "b"] ++ ArithmeticOp.subtract.token :: [.ident "c"])
      (.arithmetic .subtract (.arithmetic .subtract (.ident "a") (.ident "b")) (.ident "c")) :=
    .additive (.sum rfl first (term "c" (by simp)))
  have call : Derives false .primary (.ident "math" :: .openParen ::
      ([.ident "a", .minus, .ident "b", .minus, .ident "c"] ++ [.closeParen])) _ :=
    .call_one (f := .math) (by decide +kernel) body .math
  have whole : Derives false .formula
      ([.minus, .number 5] ++ ComparisonOp.equal.token :: [.ident "math", .openParen, .ident "a",
        .minus, .ident "b", .minus, .ident "c", .closeParen]) _ :=
    .comparison (.term (.unary (.negativeNumber 5))) (.term (.unary (.primary call)))
  exact ⟨⟨_, whole⟩, parser_decides_grammar.2.2 _ ⟨_, whole⟩⟩

end Cohort.Formula
