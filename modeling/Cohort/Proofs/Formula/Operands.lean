import Cohort.Proofs.Formula.Kinds
import Cohort.Proofs.Formula.Transcript
set_option relaxedAutoImplicit false
set_option autoImplicit false

/-!
# Operands of calculations

`MATH` and `DATE` coerce their operands: a text is read as a number or as an instant, and is null if
it names none. A null is not absorbed by any operation or comparison around it, so a calculation
without calls is null as soon as one of its attributes is. A text is coerced where it enters the
formula, as an attribute or as a literal. The text of `CAT` is made inside the formula, so it is not
coerced, and neither is a choice that falls on it: it is a text in every mode, and arithmetic with
it is null.

## Main definitions

* `Cohort.Formula.Expr.isCallFree` — formulas without calls.
* `Cohort.Formula.Unusable` — the values of attributes that a calculation cannot use.
* `Cohort.Formula.Yields` — the part of a formula that its choices fall on.

## Main results

* `Cohort.Formula.Asks.eq_null` — a null operand makes a formula without calls null.
* `Cohort.Formula.Expr.calculation_null` — so it does with whole calculations.
* `Cohort.Formula.Yields.evaluateIn_eq` — a formula has the value of the part that it yields.
* `Cohort.Formula.Expr.isText_iff_yields_cat` — inside a calculation a formula is a text if and only
  if it yields a call of `CAT`. -/

namespace Cohort.Formula

variable {σ : Type} {scope : String → StateM σ Json} {mode : Mode} {e : Expr} {s : σ}

/-! ### Missing operands -/

/-- Whether a formula has no calls. -/
def Expr.isCallFree : Expr → Bool
  | .ident _ | .text _ | .number _ | .duration _ | .bool _ | .null => true
  | .cat _ _ | .choose _ _ _ | .math _ | .date _ => false
  | .arithmetic _ left right | .comparison _ left right => left.isCallFree && right.isCallFree
  | .negate body => body.isCallFree

/-- The calculation of a mode with a formula: a call of `MATH` or of `DATE`. In plain mode it is the
formula alone. -/
def Expr.calculation : Mode → Expr → Expr
  | .plain, e => e
  | .math, e => .math e
  | .date, e => .date e

/-- The values of attributes that a calculation cannot use: null, for numbers a text that is no
number, and for instants a text that is no instant. -/
inductive Unusable : Mode → Json → Prop
  | null {mode : Mode} : Unusable mode .null
  | notNumber {text : String} (h : Json.numberOfText? text = none) : Unusable .math (.string text)
  | notInstant {text : String} (h : Instant.ofText? text = none) : Unusable .date (.string text)

/-- A mode makes null of what it cannot use. -/
lemma Unusable.coerce_eq {v : Json} (h : Unusable mode v) : coerce mode (.ofJson v) = .null := by
  cases h with
  | null => cases mode <;> rfl
  | notNumber h =>
    simp only [Value.ofJson, coerce]
    rw [h]
  | notInstant h =>
    simp only [Value.ofJson, coerce]
    rw [h]

/-- An operation with null is null. -/
lemma calculate_of_null (op : ArithmeticOp) {v w : Value} (h : v = .null ∨ w = .null) :
    calculate op v w = .null := by
  rcases h with rfl | rfl
  · cases op <;> rfl
  · cases op <;> cases v <;> rfl

section Missing

variable {t : Transcript} {v : Value}

/-- A formula without calls asks for every attribute that it mentions: only choices leave some
out.

**Proof sketch.** By the constructor of the formula. Without calls there are no choices, and the
parts of an operation are asked for from left to right. -/
theorem Asks.names_eq {mode : Mode} {e : Expr} {t : Transcript} {v : Value} (h : Asks mode e t v)
    (he : e.isCallFree = true) : t.names = e.mentions := by
  cases e with
  | ident | text | number | duration | bool | null =>
    cases h
    rfl
  | cat | choose | math | date => cases he
  | arithmetic op left right =>
    obtain ⟨hl, hr⟩ := Bool.and_eq_true_iff.mp he
    cases h with
    | arithmetic hleft hright =>
      rw [Transcript.names_append, hleft.names_eq hl, hright.names_eq hr, Expr.mentions]
  | comparison op left right =>
    obtain ⟨hl, hr⟩ := Bool.and_eq_true_iff.mp he
    cases h with
    | comparison hleft hright =>
      rw [Transcript.names_append, hleft.names_eq hl, hright.names_eq hr, Expr.mentions]
  | negate body =>
    cases h with
    | negate hbody => rw [hbody.names_eq he, Expr.mentions]

/-- An answer that the mode cannot use makes a formula without calls null.

**Proof sketch.** Induction on the formula. The attribute itself is null, and so is every operation
and comparison with null, on whichever side it stands. -/
theorem Asks.eq_null {mode : Mode} {e : Expr} {t : Transcript} {v : Value} (h : Asks mode e t v)
    (he : e.isCallFree = true) (hunusable : ∃ entry ∈ t, Unusable mode entry.2) : v = .null := by
  obtain ⟨entry, hentry, hanswer⟩ := hunusable
  cases e with
  | ident name =>
    cases h
    obtain rfl := List.mem_singleton.mp hentry
    exact hanswer.coerce_eq
  | text | number | duration | bool | null =>
    cases h
    cases hentry
  | cat | choose | math | date => cases he
  | arithmetic op left right =>
    obtain ⟨hl, hr⟩ := Bool.and_eq_true_iff.mp he
    cases h with
    | arithmetic hleft hright =>
      apply calculate_of_null
      rcases List.mem_append.mp hentry with hentry | hentry
      · exact .inl (hleft.eq_null hl ⟨entry, hentry, hanswer⟩)
      · exact .inr (hright.eq_null hr ⟨entry, hentry, hanswer⟩)
  | comparison op left right =>
    obtain ⟨hl, hr⟩ := Bool.and_eq_true_iff.mp he
    cases h with
    | comparison hleft hright =>
      apply compareValues_of_null
      rcases List.mem_append.mp hentry with hentry | hentry
      · exact .inl (hleft.eq_null hl ⟨entry, hentry, hanswer⟩)
      · exact .inr (hright.eq_null hr ⟨entry, hentry, hanswer⟩)
  | negate body =>
    cases h with
    | negate hbody =>
      rw [hbody.eq_null he ⟨entry, hentry, hanswer⟩]
      rfl

/-- A calculation of a mode has a transcript of its formula, and with null as the value of the
formula it is null. -/
lemma exists_asks_of_calculation (h : Asks .plain (e.calculation mode) t v) :
    ∃ w, Asks mode e t w ∧ (w = .null → v = .null) := by
  cases mode with
  | plain => exact ⟨v, h, id⟩
  | math =>
    cases h with
    | @math _ _ _ w hbody => exact ⟨w, hbody, by rintro rfl; rfl⟩
  | date =>
    cases h with
    | @date _ _ _ w hbody => exact ⟨w, hbody, by rintro rfl; rfl⟩

end Missing

namespace Expr

/-- A name that a run asks for is answered by the scope. -/
lemma exists_answer {name : String} (h : name ∈ (e.transcribe scope s).transcript.names) :
    ∃ entry ∈ (e.transcribe scope s).transcript, ∃ s', entry.2 = (scope name s').1 := by
  obtain ⟨entry, hentry, rfl⟩ := List.mem_map.mp h
  obtain ⟨_, _, s', _, hanswer⟩ := mem_transcript_iff.mp hentry
  exact ⟨entry, hentry, s', hanswer.symm⟩

/-- Null is contagious: a calculation without calls inside looks up every attribute that it
mentions, and if it cannot use one of the answers it is null. So it is null in every scope in which
one of its identifiers is missing, null, or a text that `MATH` cannot read as a number, or `DATE` as
an instant.

**Proof sketch.** The transcript of the calculation is that of the formula inside. If one of its
answers cannot be used the formula is null (`Asks.eq_null`), and the calculation of null is null. An
identifier is asked for at some point, whatever the scope is. -/
theorem calculation_null (he : e.isCallFree = true) (mode : Mode) (scope : String → StateM σ Json)
    (s : σ) :
    let call := e.calculation mode
    let asked := (call.transcribe scope s).transcript
    asked.names = e.mentions ∧
      ((∃ entry ∈ asked, Unusable mode entry.2) → (call.evaluate scope s).1 = .null) ∧
      ∀ name ∈ e.identifiers, (∀ s', Unusable mode (scope name s').1) →
        (call.evaluate scope s).1 = .null := by
  intro call asked
  obtain ⟨v, hasks, hv⟩ := exists_asks_of_calculation (call.transcribe_asks scope s).1
  have hnull (h : ∃ entry ∈ asked, Unusable mode entry.2) :
      (call.evaluate scope s).1 = .null := by
    rw [evaluate_eq_transcribe]
    exact hv (hasks.eq_null he h)
  refine ⟨hasks.names_eq he, hnull, ?_⟩
  intro name hname hunusable
  rw [mem_identifiers, ← hasks.names_eq he] at hname
  obtain ⟨entry, hentry, s', hanswer⟩ := exists_answer hname
  exact hnull ⟨entry, hentry, hanswer ▸ hunusable s'⟩

end Expr

/-- The opposite of a sum, twice. -/
def twiceOpposite : Expr := .arithmetic .multiply (.negate sum) (.number 2)

/-- A text that is no number makes `MATH(-(a + b) * 2)` null; with a number in its place the same
formula has a value. -/
theorem twiceOpposite_null :
    twiceOpposite.isCallFree = true ∧ "b" ∈ twiceOpposite.identifiers ∧
    (∀ s', Unusable .math (listed [("a", .ofInt 3), ("b", .string "five")] "b" s').1) ∧
    ((Expr.math twiceOpposite).evaluate
      (listed [("a", .ofInt 3), ("b", .string "five")]) ()).1 = .null ∧
    ((Expr.math twiceOpposite).evaluate
      (listed [("a", .ofInt 3), ("b", .string "5")]) ()).1 = .number (-16) := by
  have hfree : twiceOpposite.isCallFree = true := rfl
  have hname : "b" ∈ twiceOpposite.identifiers := by decide
  have hunusable : ∀ s', Unusable .math
      (listed [("a", .ofInt 3), ("b", .string "five")] "b" s').1 := fun _ =>
    .notNumber (by decide +kernel)
  obtain ⟨-, -, hnull⟩ := Expr.calculation_null hfree .math
    (listed [("a", .ofInt 3), ("b", .string "five")]) ()
  exact ⟨hfree, hname, hunusable, hnull "b" hname hunusable, by decide +kernel⟩

/-! ### Texts among operands -/

/-- The part of a formula that its choices fall on: an evaluation comes to it through branches. -/
def Yields (scope : String → StateM σ Json) (now later : Moment σ) : Prop :=
  ∃ path, Reaches scope now path later ∧ ∀ step ∈ path, step = .branch

/-- A part without a branch in it is what it falls on itself. -/
lemma Yields.refl (now : Moment σ) : Yields scope now now :=
  ⟨[], .here, nofun⟩

/-- What a branch falls on is what the choice falls on. -/
lemma Yields.head {now next later : Moment σ} (h : Enters scope now .branch next)
    (hlater : Yields scope next later) : Yields scope now later := by
  obtain ⟨path, hreached, hbranches⟩ := hlater
  exact ⟨.branch :: path, .step h hreached, by simpa using hbranches⟩

/-- A choice has the value of its branch, and leaves behind the same. -/
lemma Enters.evaluateIn_eq {now next : Moment σ} (h : Enters scope now .branch next) :
    now.part.evaluateIn scope now.mode now.state =
      next.part.evaluateIn scope next.mode next.state := by
  cases h with
  | @accepted mode s condition accepted rejected hheld =>
    change (Expr.choose condition accepted rejected).evaluateIn scope mode s = _
    rw [Expr.evaluateIn]
    change (if (condition.evaluateIn scope .plain s).1.isTruthy then
      accepted.evaluateIn scope mode else rejected.evaluateIn scope mode) _ = _
    rw [if_pos hheld]
  | @rejected mode s condition accepted rejected hheld =>
    change (Expr.choose condition accepted rejected).evaluateIn scope mode s = _
    rw [Expr.evaluateIn]
    change (if (condition.evaluateIn scope .plain s).1.isTruthy then
      accepted.evaluateIn scope mode else rejected.evaluateIn scope mode) _ = _
    rw [if_neg (by simp [hheld])]

/-- A formula has the value of the part that it yields. -/
theorem Yields.evaluateIn_eq {now later : Moment σ} (h : Yields scope now later) :
    now.part.evaluateIn scope now.mode now.state =
      later.part.evaluateIn scope later.mode later.state := by
  obtain ⟨path, hreached, hbranches⟩ := h
  induction hreached with
  | here => rfl
  | step h _ ih =>
    obtain rfl := hbranches _ List.mem_cons_self
    exact h.evaluateIn_eq.trans (ih fun step hstep => hbranches step (List.mem_cons_of_mem _ hstep))

/-- Every formula yields a part that is no choice. -/
lemma exists_yields (scope : String → StateM σ Json) (mode : Mode) (e : Expr) (s : σ) :
    ∃ part s', Yields scope ⟨mode, e, s⟩ ⟨mode, part, s'⟩ ∧
      ∀ condition accepted rejected, part ≠ .choose condition accepted rejected := by
  cases e with
  | choose condition accepted rejected =>
    by_cases hheld : (condition.evaluateIn scope .plain s).1.isTruthy = true
    · obtain ⟨part, s', hyields, hpart⟩ := exists_yields scope mode accepted
        (condition.evaluateIn scope .plain s).2
      exact ⟨part, s', .head (.accepted hheld) hyields, hpart⟩
    · obtain ⟨part, s', hyields, hpart⟩ := exists_yields scope mode rejected
        (condition.evaluateIn scope .plain s).2
      exact ⟨part, s', .head (.rejected (by simpa using hheld)) hyields, hpart⟩
  | _ => exact ⟨_, s, .refl _, by simp⟩

/-- Coercion leaves no text. -/
lemma text_notMem_coercedKinds (hmode : mode ≠ .plain) (kind : Kind) :
    Kind.text ∉ coercedKinds mode kind := by
  cases mode with
  | plain => exact absurd rfl hmode
  | math | date => cases kind <;> decide

namespace Expr

/-- Inside a calculation only choices and calls of `CAT` may be texts.

**Proof sketch.** By the constructor of the formula: what a call, an operation, a comparison or an
opposite gives has a kind from its table, and attributes and literals are coerced. -/
lemma text_notMem_kinds (hmode : mode ≠ .plain) (hcat : ∀ first rest, e ≠ .cat first rest)
    (hchoose : ∀ condition accepted rejected, e ≠ .choose condition accepted rejected) :
    Kind.text ∉ e.kinds mode := by
  intro htext
  cases e with
  | ident name =>
    obtain ⟨kind, -, hkind⟩ := List.mem_flatMap.mp htext
    exact text_notMem_coercedKinds hmode kind hkind
  | text t => exact text_notMem_coercedKinds hmode .text htext
  | number | duration | bool | null => simp [kinds] at htext
  | cat first rest => exact hcat first rest rfl
  | choose condition accepted rejected => exact hchoose condition accepted rejected rfl
  | math body =>
    obtain ⟨kind, -, hkind⟩ := List.mem_flatMap.mp htext
    cases kind <;> simp [mathKinds] at hkind
  | date body =>
    obtain ⟨kind, -, hkind⟩ := List.mem_flatMap.mp htext
    cases kind <;> simp [dateKinds] at hkind
  | arithmetic op left right =>
    simp only [kinds, List.mem_flatMap] at htext
    obtain ⟨k, -, k', -, hkind⟩ := htext
    simpa using calculatedKinds_subset op k k' hkind
  | comparison op left right =>
    simp only [kinds, List.mem_flatMap] at htext
    obtain ⟨k, -, k', -, hkind⟩ := htext
    simpa using comparedKinds_subset op k k' hkind
  | negate body =>
    obtain ⟨kind, -, hkind⟩ := List.mem_map.mp htext
    cases kind <;> simp [oppositeKind] at hkind

/-- Inside a calculation a formula is a text if and only if it yields a call of `CAT`. An attribute
and a literal that it yields are coerced as the mode needs them. Neither calculation can use a text,
alone or as an operand.

**Proof sketch.** The choices of the formula fall on a part that is no choice, and the value is that
of this part. Of such parts only a call of `CAT` may be a text (`text_notMem_kinds`). -/
theorem isText_iff_yields_cat (hmode : mode ≠ .plain) (scope : String → StateM σ Json) (e : Expr)
    (s : σ) :
    let value := (e.evaluateIn scope mode s).1
    ((∃ text, value = .text text) ↔
        ∃ first rest s', Yields scope ⟨mode, e, s⟩ ⟨mode, .cat first rest, s'⟩) ∧
      (∀ name s', Yields scope ⟨mode, e, s⟩ ⟨mode, .ident name, s'⟩ →
        value = coerce mode (.ofJson (scope name s').1)) ∧
      (∀ text s', Yields scope ⟨mode, e, s⟩ ⟨mode, .text text, s'⟩ →
        value = coerce mode (.text text)) ∧
      ∀ text, value = .text text → mathResult value = .null ∧ dateResult value = .null ∧
        ∀ op other, calculate op value other = .null ∧ calculate op other value = .null := by
  intro value
  have hvalue {part : Expr} {s' : σ} (h : Yields scope ⟨mode, e, s⟩ ⟨mode, part, s'⟩) :
      value = (part.evaluateIn scope mode s').1 := congrArg Prod.fst h.evaluateIn_eq
  refine ⟨⟨?_, ?_⟩, ?_, ?_, ?_⟩
  · rintro ⟨text, htext⟩
    -- the part that is chosen in the end is no choice, and only a concatenation is text there
    obtain ⟨part, s', hyields, hchoose⟩ := exists_yields scope mode e s
    have hkind : (part.evaluateIn scope mode s').1.kind = .text := by
      rw [← hvalue hyields, htext]
      rfl
    by_contra hnone
    refine text_notMem_kinds hmode ?_ hchoose (hkind ▸ kind_evaluateIn scope mode part s')
    rintro first rest rfl
    exact hnone ⟨first, rest, s', hyields⟩
  · rintro ⟨first, rest, s', hyields⟩
    rw [hvalue hyields, evaluateIn]
    exact ⟨_, rfl⟩
  · intro name s' hyields
    rw [hvalue hyields, evaluateIn]
    rfl
  · intro text s' hyields
    rw [hvalue hyields, evaluateIn]
    rfl
  · intro text htext
    rw [htext]
    refine ⟨rfl, rfl, fun op other => ⟨?_, ?_⟩⟩
    · cases op <;> cases other <;> rfl
    · cases op <;> cases other <;> rfl

end Expr

/-- A choice between a joined text and an attribute. -/
def joinedOr : Expr := .choose (.ident "flag") (.cat (.ident "a") []) (.ident "a")

/-- If the condition of `IF(flag, CAT(a), a)` holds then the choice is the text of `a`, also inside
a calculation with numbers; if not, it is the number that the text names. -/
theorem joinedOr_texts :
    Mode.math ≠ .plain ∧
    (∃ text, (joinedOr.evaluateIn (listed [("flag", .bool true), ("a", .string "5")]) .math ()).1 =
      .text text) ∧
    (joinedOr.evaluateIn (listed [("flag", .bool false), ("a", .string "5")]) .math ()).1 =
      .number 5 := by
  have hmode : Mode.math ≠ .plain := Mode.noConfusion
  have hheld : ((Expr.ident "flag").evaluateIn
      (listed [("flag", .bool true), ("a", .string "5")]) .plain ()).1.isTruthy = true := rfl
  have hnot : ((Expr.ident "flag").evaluateIn
      (listed [("flag", .bool false), ("a", .string "5")]) .plain ()).1.isTruthy = false := rfl
  obtain ⟨htext, -, -, -⟩ := joinedOr.isText_iff_yields_cat hmode
    (listed [("flag", .bool true), ("a", .string "5")]) ()
  obtain ⟨-, hname, -, -⟩ := joinedOr.isText_iff_yields_cat hmode
    (listed [("flag", .bool false), ("a", .string "5")]) ()
  refine ⟨hmode, htext.mpr ⟨_, _, (), .head (.accepted hheld) (.refl _)⟩, ?_⟩
  rw [hname "a" () (.head (.rejected hnot) (.refl _))]
  decide +kernel

/-- The text of `CAT` is not coerced: in `MATH(CAT("5") + 1)` it stays a text, and the sum is null.
The literal and the attribute of the same text lead to 6. -/
theorem cat_uncoerced :
    parse "MATH(CAT(\"5\") + 1)" =
      .ok (.math (.arithmetic .add (.cat (.text "5") []) (.number 1))) ∧
    ((Expr.cat (.text "5") []).evaluateIn (listed []) .math ()).1 = .text "5" ∧
    ((Expr.math (.arithmetic .add (.cat (.text "5") []) (.number 1))).evaluate (listed []) ()).1 =
      .null ∧
    ((Expr.math (.arithmetic .add (.text "5") (.number 1))).evaluate (listed []) ()).1 =
      .number 6 ∧
    ((Expr.math (.arithmetic .add (.ident "a") (.number 1))).evaluate
      (listed [("a", .string "5")]) ()).1 = .number 6 := by
  have hcat : Derives true .primary [.ident "CAT", .openParen, .text "5", .closeParen]
      (.cat (.text "5") []) :=
    .call_one (f := .cat) (by decide +kernel)
      (.additive (.term (.unary (.primary (.text "5"))))) .cat
  have hsum : Derives true .formula
      ([.ident "CAT", .openParen, .text "5", .closeParen] ++ ArithmeticOp.add.token :: [.number 1])
      (.arithmetic .add (.cat (.text "5") []) (.number 1)) :=
    .additive (.sum rfl (.term (.unary (.primary hcat))) (.unary (.primary (.number 1))))
  have hparse : parse "MATH(CAT(\"5\") + 1)" =
      .ok (.math (.arithmetic .add (.cat (.text "5") []) (.number 1))) :=
    parse_math (by decide +kernel) hsum
  exact ⟨hparse, by decide +kernel, by decide +kernel, by decide +kernel, by decide +kernel⟩

end Cohort.Formula
