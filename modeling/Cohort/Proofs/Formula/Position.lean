import Cohort.Proofs.Formula.Lexemes
import Cohort.Proofs.Formula.Soundness
set_option relaxedAutoImplicit false
set_option autoImplicit false

/-!
# Where formulas are refused

A fault is found at a token, or where a token should be and the formula ends. Readers give the place
of that token, or the length of the formula, whether they find the fault at once, after they have
read more, or in a part that another reader reads for them. The fault is about that very token.

## Main definitions

* `Cohort.Formula.ParseFault.Concerns` — what a fault says of what it is found at.
* `Cohort.Formula.position` — the place of what follows.
* `Cohort.Formula.FailsIn` — an error at a token, or at the end of tokens.
* `Cohort.Formula.PointsInto` — an error at a place of a formula.

## Main results

* `Cohort.Formula.bareFormula_fails` — the reader of a formula fails in its tokens.
* `Cohort.Formula.parse_error_pointsInto` — errors point into their formula.
-/

namespace Cohort.Formula

/-- What a fault says of the token that it is found at, if there is one. -/
def ParseFault.Concerns : ParseFault → Option Token → Prop
  | .trailing token, found | .unexpected token, found | .unexpectedInArguments token, found =>
    found = some token
  | .unbalanced, found => found = some .closeParen
  | .unclosed expected, found => found = expected
  | .unexpectedEnd, found | .openArguments, found => found = none
  | .unknownFunction name, found => found = some (.ident name)
  | .wrongArity f _, found => ∃ name, Function.ofName? name = some f ∧ found = some (.ident name)
  | .arithmeticOutside, found =>
    ∃ token, found = some token ∧
      (token = .minus ∨ (additiveOf? token).isSome ∨ (multiplicativeOf? token).isSome)
  | .invalidToken _, _ | .empty, _ => False

/-- The place of what follows: that of the first token, or the length of the formula. -/
def position (stop : Nat) : List Placed → Nat
  | [] => stop
  | t :: _ => t.start

/-- An error at the end of some of the tokens: its place is that of what follows there, and its
fault concerns it. -/
def FailsIn (stop : Nat) (ts : List Placed) (e : ParseError) : Prop :=
  ∃ rest, rest <:+ ts ∧ e.position = position stop rest ∧
    e.fault.Concerns (rest.head?.map Placed.token)

variable {stop : Nat} {inside : Bool} {left : Expr} {t : Placed} {ts rest used : List Placed}
  {err : ParseError} {fault : ParseFault}

/-- An error in the rest of tokens is one in the tokens. -/
lemma FailsIn.mono (h : FailsIn stop rest err) (hrest : rest <:+ ts) : FailsIn stop ts err := by
  obtain ⟨others, hothers, hposition, hfault⟩ := h
  exact ⟨others, hothers.trans hrest, hposition, hfault⟩

/-- An error in the tokens after the first one is one in the tokens. -/
lemma FailsIn.cons (h : FailsIn stop ts err) : FailsIn stop (t :: ts) err :=
  h.mono (List.suffix_cons t ts)

/-- A fault that concerns the end fails there. -/
lemma failsIn_nil (h : fault.Concerns none) : FailsIn stop [] ⟨stop, fault⟩ :=
  ⟨[], List.suffix_rfl, rfl, h⟩

/-- A fault that concerns a token fails there. -/
lemma failsIn_cons (h : fault.Concerns (some t.token)) :
    FailsIn stop (t :: ts) ⟨t.start, fault⟩ :=
  ⟨t :: ts, List.suffix_rfl, rfl, h⟩

/-- What a reader leaves is the end of what it was given. -/
lemma Takes.suffix {level : Level} {e : Expr} (h : Takes inside level ts e rest) : rest <:+ ts := by
  obtain ⟨used, rfl, -⟩ := h
  exact List.suffix_append _ _

/-- A parenthesis that is missing is an error at the token in its place, or at the end. -/
lemma closeParen_fails (h : closeParen stop ts = .error err) : FailsIn stop ts err := by
  unfold closeParen at h
  cases ts with
  | nil =>
    cases h
    exact failsIn_nil rfl
  | cons t others =>
    simp only at h
    split at h
    case isTrue => cases h
    case isFalse =>
      cases h
      exact failsIn_cons rfl

mutual

/-- The reader of a formula fails in its tokens.

**Proof sketch.** All readers at once, along their recursion. What a reader leaves to the next is
the end of its own tokens, so an error there is one in them. -/
theorem bareFormula_fails {inside : Bool} {ts : List Placed} {err : ParseError}
    (h : bareFormula stop inside ts = .error err) : FailsIn stop ts err := by
  rw [bareFormula_eq] at h
  rcases Result.bind_eq_error.mp h with hleft | ⟨⟨left, rest⟩, hleft, h⟩
  · exact bareAdditive_fails hleft
  have takesLeft := bareAdditive_sound hleft
  cases rest with
  | nil => cases h
  | cons t others =>
    have hlt : others.length < ts.length := Nat.lt_of_succ_lt takesLeft.length_lt
    cases hop : comparisonOf? t.token with
    | none =>
      simp only [hop] at h
      cases h
    | some op =>
      simp only [hop] at h
      rcases Result.bind_eq_error.mp h with hright | ⟨_, -, h⟩
      · exact (bareAdditive_fails hright).cons.mono takesLeft.suffix
      · cases h
termination_by (ts.length, 6)

/-- The reader of a sum fails in its tokens. -/
theorem bareAdditive_fails {inside : Bool} {ts : List Placed} {err : ParseError}
    (h : bareAdditive stop inside ts = .error err) : FailsIn stop ts err := by
  rw [bareAdditive_eq] at h
  rcases Result.bind_eq_error.mp h with hleft | ⟨⟨left, rest⟩, hleft, h⟩
  · exact bareTerm_fails hleft
  · have takesLeft := bareTerm_sound hleft
    have hlt := takesLeft.length_lt
    exact (bareSum_fails h).mono takesLeft.suffix
termination_by (ts.length, 5)

/-- The loop over the terms of a sum fails in its tokens.

**Proof sketch.** With no sign of addition in front the loop does not fail. Outside a calculation
the sign is the error; inside, the term behind it fails, or the loop does in what that leaves. -/
theorem bareSum_fails {inside : Bool} {left : Expr} {ts : List Placed} {err : ParseError}
    (h : bareSum stop inside left ts = .error err) : FailsIn stop ts err := by
  match ts, h with
  | [], h =>
    rw [bareSum_nil] at h
    cases h
  | t :: others, h =>
    rw [bareSum_cons] at h
    cases hop : additiveOf? t.token with
    | none => simp [hop] at h
    | some op =>
      cases inside with
      | false =>
        simp only [hop, Bool.false_eq_true, if_false] at h
        cases h
        exact failsIn_cons ⟨t.token, rfl, .inr (.inl (by simp [hop]))⟩
      | true =>
        simp only [hop, if_true] at h
        rcases Result.bind_eq_error.mp h with hright | ⟨⟨right, rest⟩, hright, h⟩
        · exact (bareTerm_fails hright).cons
        · have takesRight := bareTerm_sound hright
          have hlt := takesRight.length_lt
          exact ((bareSum_fails h).mono takesRight.suffix).cons
termination_by (ts.length, 0)

/-- The reader of a product fails in its tokens. -/
theorem bareTerm_fails {inside : Bool} {ts : List Placed} {err : ParseError}
    (h : bareTerm stop inside ts = .error err) : FailsIn stop ts err := by
  rw [bareTerm_eq] at h
  rcases Result.bind_eq_error.mp h with hleft | ⟨⟨left, rest⟩, hleft, h⟩
  · exact bareUnary_fails hleft
  · have takesLeft := bareUnary_sound hleft
    have hlt := takesLeft.length_lt
    exact (bareProduct_fails h).mono takesLeft.suffix
termination_by (ts.length, 4)

/-- The loop over the factors of a product fails in its tokens.

**Proof sketch.** With no sign of multiplication in front the loop does not fail. Outside a
calculation the sign is the error; inside, the factor behind it fails, or the loop does in what that
leaves. -/
theorem bareProduct_fails {inside : Bool} {left : Expr} {ts : List Placed} {err : ParseError}
    (h : bareProduct stop inside left ts = .error err) : FailsIn stop ts err := by
  match ts, h with
  | [], h =>
    rw [bareProduct_nil] at h
    cases h
  | t :: others, h =>
    rw [bareProduct_cons] at h
    cases hop : multiplicativeOf? t.token with
    | none => simp [hop] at h
    | some op =>
      cases inside with
      | false =>
        simp only [hop, Bool.false_eq_true, if_false] at h
        cases h
        exact failsIn_cons ⟨t.token, rfl, .inr (.inr (by simp [hop]))⟩
      | true =>
        simp only [hop, if_true] at h
        rcases Result.bind_eq_error.mp h with hright | ⟨⟨right, rest⟩, hright, h⟩
        · exact (bareUnary_fails hright).cons
        · have takesRight := bareUnary_sound hright
          have hlt := takesRight.length_lt
          exact ((bareProduct_fails h).mono takesRight.suffix).cons
termination_by (ts.length, 0)

/-- The reader of an opposite fails in its tokens.

**Proof sketch.** At the end something is missing. A minus sign before no literal is an error
outside a calculation; inside, what it stands before fails. -/
theorem bareUnary_fails {inside : Bool} {ts : List Placed} {err : ParseError}
    (h : bareUnary stop inside ts = .error err) : FailsIn stop ts err := by
  match ts, h with
  | [], h =>
    rw [bareUnary_nil] at h
    cases h
    exact failsIn_nil rfl
  | t :: others, h =>
    rw [bareUnary_cons] at h
    by_cases hminus : t.token = .minus
    · rw [if_pos hminus] at h
      cases hliteral : negativeLiteral? others with
      | some found => simp [hliteral] at h
      | none =>
        cases inside with
        | false =>
          simp only [hliteral, Bool.false_eq_true, if_false] at h
          cases h
          exact failsIn_cons ⟨t.token, rfl, .inl hminus⟩
        | true =>
          simp only [hliteral, if_true] at h
          rcases Result.bind_eq_error.mp h with hbody | ⟨_, -, h⟩
          · exact (bareUnary_fails hbody).cons
          · cases h
    · rw [if_neg hminus] at h
      exact barePrimary_fails h
termination_by (ts.length, 3)

/-- The reader of literals, names, calls and parentheses fails in its tokens.

**Proof sketch.** By the first token. Behind a parenthesis the formula fails or its end is missing;
a name in front of a parenthesis is called and its arguments fail, or it is no function. -/
theorem barePrimary_fails {inside : Bool} {ts : List Placed} {err : ParseError}
    (h : barePrimary stop inside ts = .error err) : FailsIn stop ts err := by
  match ts, h with
  | [], h =>
    rw [barePrimary_nil] at h
    cases h
    exact failsIn_nil rfl
  | t :: others, h =>
    rw [barePrimary_cons] at h
    cases ht : t.token with
    | number | duration | text => simp [ht] at h
    | openParen =>
      simp only [ht] at h
      rcases Result.bind_eq_error.mp h with hbody | ⟨⟨body, rest⟩, hbody, h⟩
      · exact (bareFormula_fails hbody).cons
      · rcases Result.bind_eq_error.mp h with hclose | ⟨_, -, h⟩
        · exact ((closeParen_fails hclose).mono (bareFormula_sound hbody).suffix).cons
        · cases h
    | ident name =>
      simp only [ht] at h
      match hothers : others, h with
      | [], h => cases h
      | u :: inner, h =>
        have hlt : inner.length < others.length := by simp [hothers]
        -- only a name before a parenthesis is called, and any other name is read without fail
        by_cases hu : u.token = .openParen
        · simp only [hu, if_true] at h
          unfold bareCall at h
          cases hname : Function.ofName? name with
          | none =>
            simp only [hname] at h
            cases h
            exact failsIn_cons (congrArg some ht)
          | some f =>
            simp only [hname] at h
            rcases Result.bind_eq_error.mp h with hes | ⟨⟨es, rest⟩, hes, h⟩
            · exact (bareArguments_fails hes).cons.cons
            · cases hcall : ofCall? f es with
              | some call =>
                simp only [hcall] at h
                cases h
              | none =>
                simp only [hcall] at h
                cases h
                exact failsIn_cons ⟨name, hname, congrArg some ht⟩
        · simp [hu] at h
    | _ =>
      simp only [ht] at h
      cases h
      exact failsIn_cons (congrArg some ht)
termination_by (ts.length, 2)

/-- The reader of arguments that may be missing fails in its tokens. -/
theorem bareArguments_fails {inside : Bool} {ts : List Placed} {err : ParseError}
    (h : bareArguments stop inside ts = .error err) : FailsIn stop ts err := by
  match ts, h with
  | [], h =>
    rw [bareArguments_nil] at h
    exact bareArgumentList_fails h
  | t :: others, h =>
    rw [bareArguments_cons] at h
    by_cases hclose : t.token = .closeParen
    · rw [if_pos hclose] at h
      cases h
    · rw [if_neg hclose] at h
      exact bareArgumentList_fails h
termination_by (ts.length, 8)

/-- The reader of arguments fails in its tokens.

**Proof sketch.** An argument fails, or what follows it is neither a comma nor the parenthesis, or
the arguments behind the comma fail. -/
theorem bareArgumentList_fails {inside : Bool} {ts : List Placed} {err : ParseError}
    (h : bareArgumentList stop inside ts = .error err) : FailsIn stop ts err := by
  rw [bareArgumentList_eq] at h
  rcases Result.bind_eq_error.mp h with hargument | ⟨⟨argument, rest⟩, hargument, h⟩
  · exact bareFormula_fails hargument
  have takes := bareFormula_sound hargument
  cases rest with
  | nil =>
    cases h
    have hend : FailsIn stop [] ⟨stop, .openArguments⟩ := failsIn_nil rfl
    exact hend.mono takes.suffix
  | cons t others =>
    have hlt : others.length < ts.length := Nat.lt_of_succ_lt takes.length_lt
    by_cases hcomma : t.token = .comma
    · simp only [hcomma, if_true] at h
      rcases Result.bind_eq_error.mp h with hmore | ⟨_, -, h⟩
      · exact (bareArgumentList_fails hmore).cons.mono takes.suffix
      · cases h
    · by_cases hclose : t.token = .closeParen
      · simp only [hclose, reduceCtorEq, if_false, if_true] at h
        cases h
      · simp only [hcomma, hclose, if_false] at h
        cases h
        have hhere : FailsIn stop (t :: others) ⟨t.start, .unexpectedInArguments t.token⟩ :=
          failsIn_cons rfl
        exact hhere.mono takes.suffix
termination_by (ts.length, 7)

end

/-! ### Whole formulas -/

/-- Tokens that are no formula are refused at one of them, or at their end.

**Proof sketch.** The formula fails in its tokens, or it leaves a token, which is refused. -/
lemma parseTokens_fails (hne : ts ≠ []) (h : parseTokens stop ts = .error err) :
    FailsIn stop ts err := by
  obtain ⟨t, others, rfl⟩ := List.exists_cons_of_ne_nil hne
  rw [parseTokens_cons] at h
  rcases Result.bind_eq_error.mp h with hread | ⟨⟨e, rest⟩, hread, h⟩
  · exact bareFormula_fails hread
  have takes := bareFormula_sound hread
  cases rest with
  | nil => cases h
  | cons u rest =>
    simp only at h
    cases h
    have hhere : FailsIn stop (u :: rest)
        ⟨u.start, if u.token = .closeParen then .unbalanced else .trailing u.token⟩ := by
      refine failsIn_cons ?_
      split
      case isTrue hu => exact congrArg some hu
      case isFalse => rfl
    exact hhere.mono takes.suffix

/-- The tokens of lexemes are those that they spell, at their places.

**Proof sketch.** Induction on the lexemes, each of which spells a token. -/
lemma placed_ok {ls : List Lexeme} (h : placed ls = .ok ts) :
    ls.map (fun l => (l.token?, l.start)) = ts.map fun t => (some t.token, t.start) := by
  have hplaced := Result.mapM_eq_ok.mp h
  induction hplaced with
  | nil => rfl
  | @cons l t ls ts hl hrest ih =>
    rw [List.map_cons, List.map_cons, ih (Result.mapM_eq_ok.mpr hrest)]
    split at hl
    case h_1 token htoken =>
      cases hl
      rw [htoken]
    case h_2 => cases hl

/-- The first lexeme that spells no token is refused, and nothing else is.

**Proof sketch.** Induction on the lexemes. The first one is refused if it spells no token;
otherwise what is refused is refused among the others. -/
lemma placed_error {ls : List Lexeme} : placed ls = .error err ↔
    ∃ l, ls.find? (·.token?.isNone) = some l ∧ err = ⟨l.start, .invalidToken l.text⟩ := by
  unfold placed
  induction ls with
  | nil => simp [List.mapM_nil, pure, Except.pure]
  | cons l ls ih =>
    rw [List.mapM_cons, Result.bind_eq_error]
    cases hl : l.token? with
    | none =>
      rw [List.find?_cons_of_pos (by simp [hl])]
      constructor
      · rintro (h | ⟨_, h, -⟩)
        · cases h
          exact ⟨l, rfl, rfl⟩
        · cases h
      · rintro ⟨_, h, rfl⟩
        cases h
        exact .inl rfl
    | some token =>
      rw [List.find?_cons_of_neg (by simp [hl]), ← ih]
      constructor
      · rintro (h | ⟨_, -, h⟩)
        · cases h
        · rcases Result.bind_eq_error.mp h with h | ⟨_, -, h⟩
          · exact h
          · cases h
      · intro h
        exact .inr ⟨⟨token, l.start⟩, rfl, Result.bind_eq_error.mpr (.inl h)⟩

/-- An error at a place of a formula. -/
inductive PointsInto (source : String) : ParseError → Prop
  /-- The first lexeme that is invalid is where it starts. -/
  | invalid {l : Lexeme} (hl : (lexemes source).find? (·.token?.isNone) = some l) :
      PointsInto source ⟨l.start, .invalidToken l.text⟩
  /-- Without lexemes there is only the start of the formula. -/
  | empty (h : lexemes source = []) : PointsInto source ⟨0, .empty⟩
  /-- A token that a fault concerns is where its lexeme starts. -/
  | token {l : Lexeme} {token : Token} {fault : ParseFault}
      (hvalid : ∀ l ∈ lexemes source, l.token? ≠ none) (hl : l ∈ lexemes source)
      (htoken : l.token? = some token) (hfault : fault.Concerns (some token)) :
      PointsInto source ⟨l.start, fault⟩
  /-- Where a token is missing the formula ends. -/
  | atEnd {fault : ParseFault} (hvalid : ∀ l ∈ lexemes source, l.token? ≠ none)
      (hne : lexemes source ≠ []) (hfault : fault.Concerns none) :
      PointsInto source ⟨source.utf8ByteSize, fault⟩

/-- Where an error points to is between two characters of the formula, or at its ends.

**Proof sketch.** Every place is that of a lexeme, where a character starts, or the start or the end
of the formula. -/
lemma PointsInto.isValid {source : String} (h : PointsInto source err) :
    String.Pos.Raw.IsValid source ⟨err.position⟩ := by
  have lexeme : ∀ l ∈ lexemes source, String.Pos.Raw.IsValid source ⟨l.start⟩ := by
    intro l hl
    obtain ⟨-, before, after, hsource, hstart, -⟩ :=
      (lexemesFrom_cut 0 source.toList).exists_append l hl
    rw [hstart, Nat.zero_add]
    exact isValid_byteLength (hsource.trans (List.append_assoc _ _ _))
  cases h with
  | invalid hl => exact lexeme _ (List.mem_of_find?_eq_some hl)
  | empty =>
    have hsource : source.toList = [] ++ source.toList := rfl
    exact isValid_byteLength hsource
  | token _ hl => exact lexeme _ hl
  | atEnd =>
    simp only
    rw [utf8ByteSize_eq]
    exact isValid_byteLength (List.append_nil _).symm

/-- A formula is refused at the first lexeme that spells no token, if there is one; otherwise at a
token that the fault is about, or at the end of the formula if a token is missing there; and at the
start if there are no lexemes at all.

**Proof sketch.** Either a lexeme is refused when the tokens are placed, which is the first invalid
one (`placed_error`), or all of them spell tokens, and the readers fail at the rest of these
(`parseTokens_fails`), which starts with a token or is the end. -/
theorem parse_error_pointsInto (source : String) :
    (∀ err, parse source = .error err →
      PointsInto source err ∧ String.Pos.Raw.IsValid source ⟨err.position⟩) ∧
    ∀ l, (lexemes source).find? (·.token?.isNone) = some l →
      parse source = .error ⟨l.start, .invalidToken l.text⟩ := by
  constructor
  · intro err h
    suffices hpoints : PointsInto source err from ⟨hpoints, hpoints.isValid⟩
    rcases Result.bind_eq_error.mp h with hplaced | ⟨ts, hplaced, h⟩
    · obtain ⟨l, hl, rfl⟩ := placed_error.mp hplaced
      exact .invalid hl
    have htokens := placed_ok hplaced
    by_cases hne : ts = []
    · subst hne
      cases h
      exact .empty (List.map_eq_nil_iff.mp htokens)
    -- the parser runs only if all lexemes spell tokens
    have hvalid : ∀ l ∈ lexemes source, l.token? ≠ none := by
      intro l hl hnone
      obtain ⟨t, -, ht⟩ := List.mem_map.mp (htokens ▸ List.mem_map_of_mem hl)
      exact Option.some_ne_none _ ((Prod.mk.inj ht).1.trans hnone)
    obtain ⟨rest, hrest, hposition, hfault⟩ := parseTokens_fails hne h
    obtain ⟨_, fault⟩ := err
    simp only at hposition hfault
    subst hposition
    cases rest with
    | nil =>
      refine .atEnd hvalid (fun hnil => ?_) hfault
      rw [hnil] at htokens
      exact hne (List.map_eq_nil_iff.mp htokens.symm)
    | cons t others =>
      have ht : t ∈ ts := hrest.subset List.mem_cons_self
      obtain ⟨l, hl, heq⟩ := List.mem_map.mp (htokens.symm ▸ List.mem_map_of_mem ht)
      obtain ⟨htoken, hstart⟩ := Prod.mk.inj heq
      change PointsInto source ⟨t.start, fault⟩
      rw [← hstart]
      exact .token hvalid hl htoken hfault
  · intro l hl
    exact Result.bind_eq_error.mpr (.inl (placed_error.mpr ⟨l, hl, rfl⟩))

/-- A sum outside a calculation is refused at its sign, whose place counts the two bytes of a letter
before it; and a sign that is no token is refused although the text after it is never closed. -/
theorem sum_pointsInto :
    parse "'é' + 1" = .error ⟨5, .arithmeticOutside⟩ ∧
      PointsInto "'é' + 1" ⟨5, .arithmeticOutside⟩ ∧
      (lexemes "(a # 'b").find? (·.token?.isNone) = some ⟨3, ['#'], none⟩ ∧
      parse "(a # 'b" = .error ⟨3, .invalidToken ['#']⟩ := by
  have hplaced : placed (lexemes "'é' + 1") = .ok
      [⟨.text "é", 0⟩, ⟨.plus, 5⟩, ⟨.number (floatOfDigits ['1']), 7⟩] := by
    decide +kernel
  have hsum : parse "'é' + 1" = .error ⟨5, .arithmeticOutside⟩ := by
    rw [parse, hplaced]
    simp [bind, Except.bind, parseTokens_cons, bareFormula_eq, bareAdditive_eq, bareTerm_eq,
      bareUnary_cons, barePrimary_cons, bareProduct_cons, bareSum_cons, multiplicativeOf?,
      additiveOf?]
  have hsign : (lexemes "(a # 'b").find? (·.token?.isNone) = some ⟨3, ['#'], none⟩ := by
    decide +kernel
  exact ⟨hsum, ((parse_error_pointsInto _).1 _ hsum).1, hsign, (parse_error_pointsInto _).2 _ hsign⟩

end Cohort.Formula
