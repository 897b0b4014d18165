import Mathlib.Tactic.Lemma
import Cohort.Formula.Evaluation
import Cohort.Proofs.Formula.Parser
set_option relaxedAutoImplicit false
set_option autoImplicit false

/-!
# The modes of arithmetic

The parser allows arithmetic inside `MATH` and `DATE`, at any depth. An evaluation takes on the mode
of such a call and passes it on to operands and to the branch of a choice; but for the arguments of
`CAT` and for conditions it goes back to the plain mode. So arithmetic is evaluated in the mode of
the innermost call that allows it, unless an argument of `CAT` or a condition lies in between. There
it is plain, and texts among its operands are not read as numbers or instants.

## Main definitions

* `Cohort.Formula.Step` — the steps from a formula to its parts.
* `Cohort.Formula.Enters`, `Cohort.Formula.Reaches` — which parts of a formula an evaluation comes
  to, by one step and by any number of them.
* `Cohort.Formula.Value.Suits` — the values that a mode calculates with.

## Main results

* `Cohort.Formula.Enters.derives` — the parts of a formula that the grammar derives are derived too,
  with arithmetic allowed where the step to them allows it.
* `Cohort.Formula.arithmetic_mode` — the mode in which arithmetic of an accepted formula is
  evaluated.
-/

namespace Cohort.Formula

/-- Whether a formula calculates at its root. -/
def Expr.isArithmetic : Expr → Bool
  | .arithmetic _ _ _ | .negate _ => true
  | _ => false

/-! ### Steps -/

/-- The steps from a formula to its parts. -/
inductive Step where
  /-- To an argument of `CAT`. -/
  | argument
  /-- To the condition of a choice. -/
  | condition
  /-- To a branch of a choice. -/
  | branch
  /-- To what `MATH` calculates. -/
  | math
  /-- To what `DATE` calculates. -/
  | date
  /-- To an operand of an operation, a comparison or a negation. -/
  | operand
deriving DecidableEq, Repr

namespace Step

/-- The mode of a part, given the mode of the formula around it. -/
def mode (around : Mode) : Step → Mode
  | .argument | .condition => .plain
  | .branch | .operand => around
  | .math => .math
  | .date => .date

/-- Whether arithmetic is allowed in a part wherever the formula around it stands. -/
def allowsArithmetic : Step → Bool
  | .math | .date => true
  | _ => false

/-- Whether a part is evaluated in plain mode whatever the mode around it is. -/
def isPlain : Step → Bool
  | .argument | .condition => true
  | _ => false

/-- A step that allows arithmetic leads to a calculation, of the same mode wherever it starts. -/
lemma mode_of_allowsArithmetic {step : Step} (h : step.allowsArithmetic = true) (around : Mode) :
    step.mode around = step.mode .plain ∧ step.mode .plain ≠ .plain := by
  cases step with
  | math | date => exact ⟨rfl, Mode.noConfusion⟩
  | _ => cases h

/-- Steps that allow no arithmetic keep the mode, unless one of them leads back to the plain one.

**Proof sketch.** Induction on the path. An argument or a condition leads to the plain mode, a
branch or an operand keeps the mode. -/
lemma foldl_mode {path : List Step} (h : ∀ step ∈ path, step.allowsArithmetic = false)
    (around : Mode) :
    path.foldl mode around = if path.any isPlain then .plain else around := by
  induction path generalizing around with
  | nil => rfl
  | cons step path ih =>
    have hpath : ∀ step ∈ path, step.allowsArithmetic = false := fun x hx =>
      h x (List.mem_cons_of_mem _ hx)
    have hstep := h step List.mem_cons_self
    rw [List.foldl_cons, ih hpath, List.any_cons]
    cases step with
    | math | date => cases hstep
    | argument | condition => simp [mode, isPlain]
    | branch | operand => simp [mode, isPlain]

/-- Steps to branches and operands keep the mode. -/
lemma foldl_mode_eq_self {path : List Step} (h : ∀ step ∈ path, step = .branch ∨ step = .operand)
    (around : Mode) : path.foldl mode around = around := by
  have hallows : ∀ step ∈ path, step.allowsArithmetic = false := by
    intro step hstep
    rcases h step hstep with rfl | rfl <;> rfl
  have hplain : ¬ path.any isPlain = true := by
    intro hany
    obtain ⟨step, hstep, hstepPlain⟩ := List.any_eq_true.mp hany
    rcases h step hstep with rfl | rfl <;> cases hstepPlain
  rw [foldl_mode hallows, if_neg hplain]

/-- Of the steps of a path that allow arithmetic one is the last.

**Proof sketch.** Induction on the path: it is the last step of those behind, if they have one, or
else the first step. -/
lemma exists_innermost {path : List Step} (h : path.any allowsArithmetic = true) :
    ∃ outer call inner, path = outer ++ call :: inner ∧ call.allowsArithmetic = true ∧
      ∀ step ∈ inner, step.allowsArithmetic = false := by
  induction path with
  | nil => cases h
  | cons step path ih =>
    by_cases hpath : path.any allowsArithmetic = true
    · obtain ⟨outer, call, inner, rfl, hcall, hinner⟩ := ih hpath
      exact ⟨step :: outer, call, inner, rfl, hcall, hinner⟩
    · refine ⟨[], step, path, rfl, ?_, ?_⟩
      · simpa [hpath] using h
      · simpa using hpath

end Step

/-! ### Moments of an evaluation -/

/-- A moment of an evaluation: the part of a formula that is evaluated next. -/
structure Moment (σ : Type) where
  /-- The mode in which it is evaluated. -/
  mode : Mode
  /-- The part. -/
  part : Expr
  /-- What the look-ups before it have left behind. -/
  state : σ

variable {σ : Type}

/-- The parts of a formula that its evaluation comes to in one step, with what the look-ups before
them have left behind. -/
inductive Enters (scope : String → StateM σ Json) : Moment σ → Step → Moment σ → Prop
  /-- The arguments of `CAT` are evaluated one after the other. -/
  | argument {mode : Mode} {s : σ} {first e : Expr} {rest before after : List Expr}
      (h : first :: rest = before ++ e :: after) :
      Enters scope ⟨mode, .cat first rest, s⟩ .argument ⟨.plain, e, (Expr.joinIn scope before s).2⟩
  | condition {mode : Mode} {s : σ} {condition accepted rejected : Expr} :
      Enters scope ⟨mode, .choose condition accepted rejected, s⟩ .condition ⟨.plain, condition, s⟩
  /-- Only the branch that the condition chooses is evaluated. -/
  | accepted {mode : Mode} {s : σ} {condition accepted rejected : Expr}
      (h : (condition.evaluateIn scope .plain s).1.isTruthy = true) :
      Enters scope ⟨mode, .choose condition accepted rejected, s⟩ .branch
        ⟨mode, accepted, (condition.evaluateIn scope .plain s).2⟩
  | rejected {mode : Mode} {s : σ} {condition accepted rejected : Expr}
      (h : (condition.evaluateIn scope .plain s).1.isTruthy = false) :
      Enters scope ⟨mode, .choose condition accepted rejected, s⟩ .branch
        ⟨mode, rejected, (condition.evaluateIn scope .plain s).2⟩
  | math {mode : Mode} {s : σ} {body : Expr} :
      Enters scope ⟨mode, .math body, s⟩ .math ⟨.math, body, s⟩
  | date {mode : Mode} {s : σ} {body : Expr} :
      Enters scope ⟨mode, .date body, s⟩ .date ⟨.date, body, s⟩
  | left {mode : Mode} {s : σ} {op : ArithmeticOp} {left right : Expr} :
      Enters scope ⟨mode, .arithmetic op left right, s⟩ .operand ⟨mode, left, s⟩
  | right {mode : Mode} {s : σ} {op : ArithmeticOp} {left right : Expr} :
      Enters scope ⟨mode, .arithmetic op left right, s⟩ .operand
        ⟨mode, right, (left.evaluateIn scope mode s).2⟩
  | compareLeft {mode : Mode} {s : σ} {op : ComparisonOp} {left right : Expr} :
      Enters scope ⟨mode, .comparison op left right, s⟩ .operand ⟨mode, left, s⟩
  | compareRight {mode : Mode} {s : σ} {op : ComparisonOp} {left right : Expr} :
      Enters scope ⟨mode, .comparison op left right, s⟩ .operand
        ⟨mode, right, (left.evaluateIn scope mode s).2⟩
  | negate {mode : Mode} {s : σ} {body : Expr} :
      Enters scope ⟨mode, .negate body, s⟩ .operand ⟨mode, body, s⟩

/-- The parts of a formula that its evaluation comes to, with the steps to them. -/
inductive Reaches (scope : String → StateM σ Json) : Moment σ → List Step → Moment σ → Prop
  | here {now : Moment σ} : Reaches scope now [] now
  | step {now next later : Moment σ} {step : Step} {path : List Step}
      (h : Enters scope now step next) (hlater : Reaches scope next path later) :
      Reaches scope now (step :: path) later

section Reaching

variable {scope : String → StateM σ Json} {now next later : Moment σ} {step : Step}
  {path : List Step} {inside : Bool} {level : Level} {tokens : List Token}

/-- The mode of a part is that of the step to it. -/
lemma Enters.mode_eq (h : Enters scope now step next) : next.mode = step.mode now.mode := by
  cases h <;> rfl

/-- The mode of a part is that of the steps to it, one after the other. -/
lemma Reaches.mode_eq (h : Reaches scope now path later) :
    later.mode = path.foldl Step.mode now.mode := by
  induction h with
  | here => rfl
  | step h _ ih => rw [ih, h.mode_eq, List.foldl_cons]

/-- A name that stands for a value stands for a truth value or for null. -/
lemma keyword_eq {name : String} {e : Expr} (h : (name, e) ∈ keywords) :
    (∃ b, e = .bool b) ∨ e = .null := by
  simp only [keywords, List.mem_cons, Prod.mk.injEq, List.not_mem_nil, or_false] at h
  rcases h with ⟨-, rfl⟩ | ⟨-, rfl⟩ | ⟨-, rfl⟩ | ⟨-, rfl⟩ | ⟨-, rfl⟩ | ⟨-, rfl⟩ <;> simp

/-- The parts of a formula that the grammar derives are derived too, with arithmetic allowed where
the step to them allows it, or where it is allowed around the formula.

**Proof sketch.** Induction on the derivation of the formula. The productions that build no tree of
their own pass on to the ones that do; of those, only a call changes what is allowed. -/
theorem Enters.derives (h : Enters scope now step next)
    (hderives : Derives inside level tokens now.part) :
    ∃ level' tokens', Derives (step.allowsArithmetic || inside) level' tokens' next.part := by
  obtain ⟨mode, e, s⟩ := now
  simp only at hderives
  induction hderives with
  | additive _ ih | term _ ih | unary _ ih | primary _ ih | parentheses _ ih => exact ih h
  | comparison hleft hright =>
    cases h with
    | compareLeft => exact ⟨_, _, hleft⟩
    | compareRight => exact ⟨_, _, hright⟩
  | sum _ hleft hright | product _ hleft hright =>
    cases h with
    | left => exact ⟨_, _, hleft⟩
    | right => exact ⟨_, _, hright⟩
  | negate _ hbody =>
    cases h with
    | negate => exact ⟨_, _, hbody⟩
  | keyword hname =>
    rcases keyword_eq hname with ⟨b, rfl⟩ | rfl
    · cases h
    · cases h
  | @call inside _ f arguments _ _ harguments hcall =>
    -- every part that a call enters is one of its arguments
    have hmem : ∀ e' ∈ arguments.map Prod.snd,
        ∃ level' tokens', Derives (f.allowsArithmetic || inside) level' tokens' e' := by
      intro e' he'
      obtain ⟨a, ha, rfl⟩ := List.mem_map.mp he'
      rw [Bool.or_comm]
      exact ⟨_, _, harguments a ha⟩
    generalize arguments.map Prod.snd = parts at hcall hmem
    cases hcall with
    | cat =>
      cases h with
      | argument hparts => exact hmem _ (by rw [hparts]; simp)
    | choose =>
      cases h with
      | condition => exact hmem _ (by simp)
      | accepted => exact hmem _ (by simp)
      | rejected => exact hmem _ (by simp)
    | math =>
      cases h with
      | math => exact hmem _ (by simp)
    | date =>
      cases h with
      | date => exact hmem _ (by simp)
  | _ => cases h

/-- So are all parts that an evaluation comes to.

**Proof sketch.** Induction on the way to the part. Each step leads to a part that the grammar
derives (`Enters.derives`), and what is allowed there adds up along the path. -/
lemma Reaches.derives (h : Reaches scope now path later)
    (hderives : Derives inside level tokens now.part) :
    ∃ level' tokens', Derives (path.any Step.allowsArithmetic || inside) level' tokens'
      later.part := by
  induction h generalizing inside level tokens with
  | here => exact ⟨level, tokens, hderives⟩
  | @step _ _ _ step path h _ ih =>
    obtain ⟨_, _, hnext⟩ := h.derives hderives
    have hany : ((step :: path).any Step.allowsArithmetic || inside) =
        (path.any Step.allowsArithmetic || (step.allowsArithmetic || inside)) := by
      rw [List.any_cons, Bool.or_left_comm, Bool.or_assoc]
    rw [hany]
    exact ih hnext

/-- The grammar derives arithmetic only where it is allowed.

**Proof sketch.** By the rules of the grammar. A sum, a product and an opposite are derived only
inside, and the other rules lead to a part or to a leaf. -/
lemma Derives.inside_of_isArithmetic {e : Expr} (h : Derives inside level tokens e)
    (he : e.isArithmetic = true) : inside = true := by
  induction h with
  | additive _ ih | term _ ih | unary _ ih | primary _ ih | parentheses _ ih => exact ih he
  | sum | product | negate => rfl
  | keyword hname =>
    rcases keyword_eq hname with ⟨b, rfl⟩ | rfl
    · cases he
    · cases he
  | @call _ _ _ arguments _ _ _ hcall =>
    generalize arguments.map Prod.snd = parts at hcall
    cases hcall <;> cases he
  | _ => cases he

end Reaching

/-! ### The mode of arithmetic -/

/-- The values that a mode calculates with: numbers in the mode of numbers, and anything but text in
the mode of instants. A missing value is null in both. -/
def Value.Suits : Mode → Value → Prop
  | .plain, _ => True
  | .math, .number _ | .math, .null => True
  | .math, _ => False
  | .date, .text _ => False
  | .date, _ => True

/-- A text is coerced to a value that the mode calculates with. -/
lemma suits_coerce_text (mode : Mode) (s : String) : (coerce mode (.text s)).Suits mode := by
  cases mode with
  | plain => trivial
  | math =>
    simp only [coerce]
    split <;> trivial
  | date =>
    simp only [coerce]
    split <;> trivial

/-- So is the value of an attribute. -/
lemma suits_coerce (mode : Mode) (v : Json) : (coerce mode (.ofJson v)).Suits mode := by
  cases v with
  | null | bool _ | number _ => cases mode <;> trivial
  | string _ | array _ | object _ => exact suits_coerce_text mode _

variable {scope : String → StateM σ Json} {s : σ} {path : List Step} {reached : Moment σ}

/-- Arithmetic of an accepted formula is evaluated inside a call that allows it: in the mode of the
innermost one, unless an argument of `CAT` or a condition lies between the two, and in plain mode if
so. In the mode of a call the attributes among its operands have been coerced to values that the
mode calculates with.

**Proof sketch.** All parts that the evaluation comes to are derived by the grammar, which derives
arithmetic only below a step that allows it. The last such step sets the mode, and the steps after
it keep that mode or go back to the plain one. -/
theorem arithmetic_mode {source : String} {e : Expr} (hparse : parse source = .ok e)
    (hreached : Reaches scope ⟨.plain, e, s⟩ path reached)
    (harithmetic : reached.part.isArithmetic = true) :
    ∃ outer call inner, path = outer ++ call :: inner ∧ call.allowsArithmetic = true ∧
      (∀ step ∈ inner, step.allowsArithmetic = false) ∧
      reached.mode = (if inner.any Step.isPlain then .plain else call.mode .plain) ∧
      (reached.mode ≠ .plain ↔ ∀ step ∈ inner, step.isPlain = false) ∧
      ∀ below operand name, Reaches scope reached below operand → operand.part = .ident name →
        (∀ step ∈ below, step = .branch ∨ step = .operand) →
        (operand.part.evaluateIn scope operand.mode operand.state).1.Suits reached.mode := by
  obtain ⟨tokens, -, hderives⟩ := parse_eq_ok.mp hparse
  obtain ⟨_, _, hpart⟩ := hreached.derives hderives
  have hallowed : path.any Step.allowsArithmetic = true := by
    simpa using hpart.inside_of_isArithmetic harithmetic
  obtain ⟨outer, call, inner, rfl, hcall, hinner⟩ := Step.exists_innermost hallowed
  have hmode : reached.mode = if inner.any Step.isPlain then .plain else call.mode .plain := by
    rw [hreached.mode_eq, List.foldl_append, List.foldl_cons, Step.foldl_mode hinner,
      (Step.mode_of_allowsArithmetic hcall _).1]
  refine ⟨outer, call, inner, rfl, hcall, hinner, hmode, ?_, ?_⟩
  · rw [hmode]
    by_cases hplain : inner.any Step.isPlain = true
    · rw [if_pos hplain]
      simpa using hplain
    · rw [if_neg hplain]
      simpa [(Step.mode_of_allowsArithmetic hcall .plain).2] using hplain
  · intro below operand name hoperand hname hbelow
    have hkept : operand.mode = reached.mode :=
      hoperand.mode_eq.trans (Step.foldl_mode_eq_self hbelow _)
    rw [hname, Expr.evaluateIn, ← hkept]
    exact suits_coerce operand.mode _

/-! ### A sum, and a choice that depends on it -/

/-- Attributes that are looked up in a list; those that it lacks are null. -/
def listed (attributes : List (String × Json)) : String → StateM Unit Json :=
  fun name => pure ((attributes.lookup name).getD .null)

/-- The sum of two attributes. -/
def sum : Expr := .arithmetic .add (.ident "a") (.ident "b")

/-- The grammar derives it wherever arithmetic is allowed. -/
lemma derives_sum : Derives true .formula [.ident "a", .plus, .ident "b"] sum := by
  have hleft : Derives true .term [.ident "a"] (.ident "a") :=
    .unary (.primary (derives_ofName "a"))
  have hright : Derives true .term [.ident "b"] (.ident "b") :=
    .unary (.primary (derives_ofName "b"))
  have hsum : Derives true .additive ([.ident "a"] ++ ArithmeticOp.add.token :: [.ident "b"]) sum :=
    .sum rfl (.term hleft) hright
  exact .additive hsum

/-- The grammar derives a choice that depends on the sum in the same places. -/
lemma derives_choice : Derives true .formula [.ident "IF", .openParen, .ident "a", .plus,
    .ident "b", .comma, .ident "c", .comma, .ident "d", .closeParen]
    (.choose sum (.ident "c") (.ident "d")) := by
  have harguments : ∀ a ∈ [([.ident "a", .plus, .ident "b"], sum), ([.ident "c"], .ident "c"),
      ([.ident "d"], .ident "d")], Derives (true || Function.choose.allowsArithmetic) .formula
        a.1 a.2 := by
    intro a ha
    simp only [List.mem_cons, List.not_mem_nil, or_false] at ha
    rcases ha with rfl | rfl | rfl
    · exact derives_sum
    · exact derives_name "c"
    · exact derives_name "d"
  exact .additive (.term (.unary (.primary (.call (by decide +kernel) harguments .choose))))

/-- A text whose lexemes spell a calculation with numbers is accepted. -/
lemma parse_math {source : String} {tokens : List Token} {body : Expr}
    (hlexemes : (lexemes source).map Lexeme.token? =
      (.ident "MATH" :: .openParen :: (tokens ++ [.closeParen])).map some)
    (hbody : Derives true .formula tokens body) : parse source = .ok (.math body) :=
  parse_eq_ok.mpr ⟨_, hlexemes,
    .additive (.term (.unary (.primary (.call_one (f := .math) (by decide +kernel) hbody .math))))⟩

/-- In `MATH(a + b)` the sum is calculated in the mode of numbers. -/
theorem sum_mode : parse "MATH(a + b)" = .ok (.math sum) ∧
    (∃ outer call inner, [Step.math] = outer ++ call :: inner ∧ call.allowsArithmetic = true ∧
      (∀ step ∈ inner, step.allowsArithmetic = false) ∧
      Mode.math = (if inner.any Step.isPlain then .plain else call.mode .plain) ∧
      (Mode.math ≠ .plain ↔ ∀ step ∈ inner, step.isPlain = false) ∧
      ∀ below operand name, Reaches (listed []) ⟨.math, sum, ()⟩ below operand →
        operand.part = .ident name → (∀ step ∈ below, step = .branch ∨ step = .operand) →
        (operand.part.evaluateIn (listed []) operand.mode operand.state).1.Suits .math) := by
  have hparse : parse "MATH(a + b)" = .ok (.math sum) :=
    parse_math (by decide +kernel) derives_sum
  exact ⟨hparse, arithmetic_mode hparse (.step .math .here) rfl⟩

/-- Not so in the condition of a choice: `MATH(IF(a + b, c, d))` is accepted, but its sum is
calculated in plain mode. With the texts `5` and `1` it is null and the choice falls on `d`, where
the numbers 5 and 1 lead to `c`. -/
theorem sum_in_condition :
    parse "MATH(IF(a + b, c, d))" = .ok (.math (.choose sum (.ident "c") (.ident "d"))) ∧
    (∀ attributes, Reaches (listed attributes)
      ⟨.plain, .math (.choose sum (.ident "c") (.ident "d")), ()⟩ [.math, .condition]
      ⟨.plain, sum, ()⟩) ∧
    sum.isArithmetic = true ∧
    ((Expr.math (.choose sum (.ident "c") (.ident "d"))).evaluate (listed
      [("a", .string "5"), ("b", .string "1"), ("c", .ofInt 10), ("d", .ofInt 20)]) ()).1 =
        .number 20 ∧
    ((Expr.math (.choose sum (.ident "c") (.ident "d"))).evaluate (listed
      [("a", .ofInt 5), ("b", .ofInt 1), ("c", .ofInt 10), ("d", .ofInt 20)]) ()).1 =
        .number 10 := by
  have hparse : parse "MATH(IF(a + b, c, d))" =
      .ok (.math (.choose sum (.ident "c") (.ident "d"))) :=
    parse_math (by decide +kernel) derives_choice
  refine ⟨hparse, fun _ => .step .math (.step .condition .here), rfl, ?_, ?_⟩
  · rfl
  · decide +kernel

end Cohort.Formula
