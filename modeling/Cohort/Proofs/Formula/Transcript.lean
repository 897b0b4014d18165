import Mathlib.Tactic.Lemma
import Cohort.Formula.Evaluation
import Cohort.Proofs.Formula.Evaluation
import Cohort.Proofs.Formula.Modes
set_option relaxedAutoImplicit false
set_option autoImplicit false

/-!
# What an evaluation asks for

An evaluation asks its scope for attributes, one after the other, and which it asks for next may
depend on the answers so far. The scope may depend on what it was asked before. The transcript of an
evaluation lists the names that it asks for and the answers. It determines the value: two scopes
that answer the names of one transcript alike are asked for the same names, in the same order.

## Main definitions

* `Cohort.Formula.Transcript` — the names that were asked for and the answers.
* `Cohort.Formula.Expr.transcribe` — an evaluation with its transcript.
* `Cohort.Formula.Asks` — the transcripts of a formula, and the value that each of them leads to.

## Main results

* `Cohort.Formula.Asks.replay` — a scope that answers as in a transcript of the formula leads to
  that transcript.
* `Cohort.Formula.Expr.exists_asks` — every evaluation has a transcript.
* `Cohort.Formula.Expr.transcribe_lawful` — an evaluation asks for identifiers of the formula only,
  from left to right and without those of the branch that was not chosen, and is determined by the
  answers.
* `Cohort.Formula.Expr.mem_transcript_iff` — the attributes that an evaluation asks for are those
  that it reaches.
-/

namespace Cohort.Formula

/-! ### Transcripts -/

/-- The names that a scope was asked for and its answers, in the order in which it was asked. -/
abbrev Transcript := List (String × Json)

namespace Transcript

/-- The names that were asked for. -/
def names (t : Transcript) : List String := t.map Prod.fst

/-- The answers. -/
def answers (t : Transcript) : List Json := t.map Prod.snd

/-- Nothing was asked for in the empty transcript. -/
@[simp] lemma names_nil : names [] = [] := rfl

/-- The names of a transcript start with that of its first entry. -/
@[simp] lemma names_cons (entry : String × Json) (t : Transcript) :
    names (entry :: t) = entry.1 :: t.names := rfl

/-- The names of transcripts in a row are in a row. -/
@[simp] lemma names_append (t t' : Transcript) : names (t ++ t') = t.names ++ t'.names :=
  List.map_append

/-- Nothing was answered in the empty transcript. -/
@[simp] lemma answers_nil : answers [] = [] := rfl

/-- The answers of a transcript start with that of its first entry. -/
@[simp] lemma answers_cons (entry : String × Json) (t : Transcript) :
    answers (entry :: t) = entry.2 :: t.answers := rfl

end Transcript

variable {σ : Type}

/-- A scope that is asked for the names of a transcript one after the other gives its answers. -/
def Answers (scope : String → StateM σ Json) (s : σ) (t : Transcript) (s' : σ) : Prop :=
  t.names.mapM scope s = (t.answers, s')

section Answers

variable {scope : String → StateM σ Json} {s s' s'' : σ} {t t' : Transcript}

/-- A scope that is asked for nothing stays as it is. -/
@[simp] lemma answers_nil_iff : Answers scope s [] s' ↔ s' = s := by
  simp only [Answers, Transcript.names_nil, List.mapM_nil, Transcript.answers_nil]
  constructor
  · intro h
    exact (congrArg Prod.snd h).symm
  · rintro rfl
    rfl

/-- A scope is asked for the first name, and for the others in the state that this leaves.

**Proof sketch.** The names are asked for by a computation that starts with the first of them, so
its answers are the answer to this one and those to the others. -/
lemma answers_cons_iff {entry : String × Json} :
    Answers scope s (entry :: t) s'' ↔
      ∃ s', scope entry.1 s = (entry.2, s') ∧ Answers scope s' t s'' := by
  have hrun : (Transcript.names (entry :: t)).mapM scope s =
      ((scope entry.1 s).1 :: (t.names.mapM scope (scope entry.1 s).2).1,
        (t.names.mapM scope (scope entry.1 s).2).2) := by
    rw [Transcript.names_cons, List.mapM_cons]
    rfl
  rw [Answers, hrun, Transcript.answers_cons]
  constructor
  · intro h
    obtain ⟨hanswers, hs⟩ := Prod.mk.inj h
    obtain ⟨hhead, htail⟩ := List.cons.inj hanswers
    exact ⟨(scope entry.1 s).2, Prod.ext hhead rfl, Prod.ext htail hs⟩
  · rintro ⟨s', hhead, htail⟩
    rw [Answers] at htail
    rw [hhead]
    simp only
    rw [htail]

/-- A single name is asked for by a single look-up. -/
lemma answers_singleton_iff {entry : String × Json} :
    Answers scope s [entry] s' ↔ scope entry.1 s = (entry.2, s') := by
  simp [answers_cons_iff]

/-- Transcripts in a row are asked for in a row.

**Proof sketch.** Induction on the first transcript. -/
lemma answers_append_iff :
    Answers scope s (t ++ t') s'' ↔ ∃ s', Answers scope s t s' ∧ Answers scope s' t' s'' := by
  induction t generalizing s with
  | nil => simp
  | cons entry t ih =>
    rw [List.cons_append, answers_cons_iff]
    simp only [answers_cons_iff, ih]
    constructor
    · rintro ⟨s₁, hhead, s₂, htail, hrest⟩
      exact ⟨s₂, ⟨s₁, hhead, htail⟩, hrest⟩
    · rintro ⟨s₂, ⟨s₁, hhead, htail⟩, hrest⟩
      exact ⟨s₁, hhead, s₂, htail, hrest⟩

end Answers

/-! ### Recorded evaluations -/

/-- A scope that writes down what it is asked for and what it answers. -/
def recording (scope : String → StateM σ Json) (name : String) :
    StateT Transcript (StateM σ) Json := do
  let answer ← scope name
  modify (· ++ [(name, answer)])
  return answer

/-- What an evaluation comes to. -/
structure Run (σ : Type) where
  /-- The value. -/
  value : Value
  /-- What was asked for. -/
  transcript : Transcript
  /-- What the look-ups have left behind. -/
  state : σ

/-- An evaluation with its transcript. -/
def Expr.transcribe (e : Expr) (scope : String → StateM σ Json) (s : σ) : Run σ :=
  let ((value, transcript), state) := ((e.evaluate (recording scope)).run []).run s
  ⟨value, transcript, state⟩

/-- A recorded computation goes on from what its first step leaves behind. -/
lemma bind_of_run_eq {α β : Type} {x : StateT Transcript (StateM σ) α}
    {f : α → StateT Transcript (StateM σ) β} {a : α} {before after : Transcript} {s s' : σ}
    (h : x before s = ((a, after), s')) : (x >>= f) before s = f a after s' := by
  change f (x before s).1.1 (x before s).1.2 (x before s).2 = f a after s'
  rw [h]

/-- A look-up adds the name and the answer to what was written down before. -/
lemma recording_of_eq {scope : String → StateM σ Json} {name : String} {answer : Json} {s s' : σ}
    (before : Transcript) (h : scope name s = (answer, s')) :
    recording scope name before s = ((answer, before ++ [(name, answer)]), s') := by
  change (((scope name s).1, before ++ [(name, (scope name s).1)]), (scope name s).2) = _
  rw [h]

mutual

/-- The transcripts of a formula inside a calculation, and the value that each of them leads to:
the parts of the formula are asked for from left to right, and of a choice only the condition and
the branch that it chooses. -/
inductive Asks : Mode → Expr → Transcript → Value → Prop
  | ident {mode : Mode} {name : String} {answer : Json} :
      Asks mode (.ident name) [(name, answer)] (coerce mode (.ofJson answer))
  | text {mode : Mode} {s : String} : Asks mode (.text s) [] (coerce mode (.text s))
  | number {mode : Mode} {x : Float} : Asks mode (.number x) [] (.number x)
  | duration {mode : Mode} {x : Float} : Asks mode (.duration x) [] (.duration x)
  | bool {mode : Mode} {b : Bool} : Asks mode (.bool b) [] (.bool b)
  | null {mode : Mode} : Asks mode .null [] .null
  | cat {mode : Mode} {first : Expr} {rest : List Expr} {t t' : Transcript} {head : Value}
      {tail : String} (hfirst : Asks .plain first t head) (hrest : AsksAll rest t' tail) :
      Asks mode (.cat first rest) (t ++ t') (.text (head.display ++ tail))
  | accepted {mode : Mode} {condition accepted rejected : Expr} {t t' : Transcript}
      {held v : Value} (hcondition : Asks .plain condition t held) (hheld : held.isTruthy = true)
      (hbranch : Asks mode accepted t' v) :
      Asks mode (.choose condition accepted rejected) (t ++ t') v
  | rejected {mode : Mode} {condition accepted rejected : Expr} {t t' : Transcript}
      {held v : Value} (hcondition : Asks .plain condition t held) (hheld : held.isTruthy = false)
      (hbranch : Asks mode rejected t' v) :
      Asks mode (.choose condition accepted rejected) (t ++ t') v
  | math {mode : Mode} {body : Expr} {t : Transcript} {v : Value} (hbody : Asks .math body t v) :
      Asks mode (.math body) t (mathResult v)
  | date {mode : Mode} {body : Expr} {t : Transcript} {v : Value} (hbody : Asks .date body t v) :
      Asks mode (.date body) t (dateResult v)
  | arithmetic {mode : Mode} {op : ArithmeticOp} {left right : Expr} {t t' : Transcript}
      {l r : Value} (hleft : Asks mode left t l) (hright : Asks mode right t' r) :
      Asks mode (.arithmetic op left right) (t ++ t') (calculate op l r)
  | comparison {mode : Mode} {op : ComparisonOp} {left right : Expr} {t t' : Transcript}
      {l r : Value} (hleft : Asks mode left t l) (hright : Asks mode right t' r) :
      Asks mode (.comparison op left right) (t ++ t') (compareValues op l r)
  | negate {mode : Mode} {body : Expr} {t : Transcript} {v : Value} (hbody : Asks mode body t v) :
      Asks mode (.negate body) t (opposite v)

/-- The transcripts of formulas whose texts are joined. -/
inductive AsksAll : List Expr → Transcript → String → Prop
  | nil : AsksAll [] [] ""
  | cons {e : Expr} {es : List Expr} {t t' : Transcript} {head : Value} {tail : String}
      (he : Asks .plain e t head) (hes : AsksAll es t' tail) :
      AsksAll (e :: es) (t ++ t') (head.display ++ tail)

end

section Replay

variable {scope : String → StateM σ Json}

mutual

/-- A scope that answers as in a transcript of the formula leads to that transcript and to its
value.

**Proof sketch.** Induction on the formula. The transcript of a composite formula is made of those
of its parts, so the scope answers as in each of them from where the one before has left off. -/
theorem Asks.replay {mode : Mode} {e : Expr} {v : Value} {s s' : σ} {t : Transcript}
    (before : Transcript) (h : Asks mode e t v) (hanswers : Answers scope s t s') :
    e.evaluateIn (recording scope) mode before s = ((v, before ++ t), s') := by
  cases e with
  | ident name =>
    cases h
    rw [answers_singleton_iff] at hanswers
    have hlookup : recording scope name before s = ((_, before ++ [(name, _)]), s') :=
      recording_of_eq before hanswers
    rw [Expr.evaluateIn, bind_of_run_eq hlookup]
    rfl
  | text | number | duration | bool | null =>
    cases h
    rw [answers_nil_iff] at hanswers
    rw [Expr.evaluateIn, List.append_nil, hanswers]
    rfl
  | cat first rest =>
    cases h with
    | @cat _ _ _ t t' _ _ hfirst hrest =>
      obtain ⟨s₁, hs₁, hs'⟩ := answers_append_iff.mp hanswers
      -- the second part finds the first transcript recorded behind what was there before
      have hhead := hfirst.replay before hs₁
      have htail := hrest.replay (before ++ t) hs'
      rw [Expr.evaluateIn, bind_of_run_eq hhead, bind_of_run_eq htail, List.append_assoc]
      rfl
  | choose condition accepted rejected =>
    cases h with
    | @accepted _ _ _ _ t t' _ _ hcondition hheld hbranch =>
      obtain ⟨s₁, hs₁, hs'⟩ := answers_append_iff.mp hanswers
      have hfirst := hcondition.replay before hs₁
      have hrest := hbranch.replay (before ++ t) hs'
      rw [Expr.evaluateIn, bind_of_run_eq hfirst, if_pos hheld, hrest, List.append_assoc]
    | @rejected _ _ _ _ t t' _ _ hcondition hheld hbranch =>
      obtain ⟨s₁, hs₁, hs'⟩ := answers_append_iff.mp hanswers
      have hfirst := hcondition.replay before hs₁
      have hrest := hbranch.replay (before ++ t) hs'
      rw [Expr.evaluateIn, bind_of_run_eq hfirst, if_neg (by simp [hheld]), hrest,
        List.append_assoc]
  | math body =>
    cases h with
    | math hbody =>
      rw [Expr.evaluateIn, bind_of_run_eq (hbody.replay before hanswers)]
      rfl
  | date body =>
    cases h with
    | date hbody =>
      rw [Expr.evaluateIn, bind_of_run_eq (hbody.replay before hanswers)]
      rfl
  | arithmetic op left right =>
    cases h with
    | @arithmetic _ _ _ _ t t' _ _ hleft hright =>
      obtain ⟨s₁, hs₁, hs'⟩ := answers_append_iff.mp hanswers
      have hl := hleft.replay before hs₁
      have hr := hright.replay (before ++ t) hs'
      rw [Expr.evaluateIn, bind_of_run_eq hl, bind_of_run_eq hr, List.append_assoc]
      rfl
  | comparison op left right =>
    cases h with
    | @comparison _ _ _ _ t t' _ _ hleft hright =>
      obtain ⟨s₁, hs₁, hs'⟩ := answers_append_iff.mp hanswers
      have hl := hleft.replay before hs₁
      have hr := hright.replay (before ++ t) hs'
      rw [Expr.evaluateIn, bind_of_run_eq hl, bind_of_run_eq hr, List.append_assoc]
      rfl
  | negate body =>
    cases h with
    | negate hbody =>
      rw [Expr.evaluateIn, bind_of_run_eq (hbody.replay before hanswers)]
      rfl

/-- So with formulas whose texts are joined.

**Proof sketch.** The first formula is replayed and then the others, each in the state that the
transcript so far leaves. -/
theorem AsksAll.replay {es : List Expr} {text : String} {s s' : σ} {t : Transcript}
    (before : Transcript) (h : AsksAll es t text) (hanswers : Answers scope s t s') :
    Expr.joinIn (recording scope) es before s = ((text, before ++ t), s') := by
  cases es with
  | nil =>
    cases h
    rw [answers_nil_iff] at hanswers
    rw [Expr.joinIn, List.append_nil, hanswers]
    rfl
  | cons e es =>
    cases h with
    | @cons _ _ t t' _ _ he hes =>
      obtain ⟨s₁, hs₁, hs'⟩ := answers_append_iff.mp hanswers
      have hhead := he.replay before hs₁
      have htail := hes.replay (before ++ t) hs'
      rw [Expr.joinIn, bind_of_run_eq hhead, bind_of_run_eq htail, List.append_assoc]
      rfl

end

/-! ### Every evaluation has a transcript -/

mutual

/-- However a scope answers, it answers as in some transcript of the formula.

**Proof sketch.** By the constructor of the formula. The parts are asked one after the other, each
in the state that the part before it leaves, and a choice goes on with the branch that its condition
selects. -/
theorem Expr.exists_asks (scope : String → StateM σ Json) (mode : Mode) (e : Expr) (s : σ) :
    ∃ t v s', Asks mode e t v ∧ Answers scope s t s' := by
  cases e with
  | ident name =>
    exact ⟨[(name, (scope name s).1)], _, (scope name s).2, .ident,
      answers_singleton_iff.mpr rfl⟩
  | text x => exact ⟨[], _, s, .text, answers_nil_iff.mpr rfl⟩
  | number x => exact ⟨[], _, s, .number, answers_nil_iff.mpr rfl⟩
  | duration x => exact ⟨[], _, s, .duration, answers_nil_iff.mpr rfl⟩
  | bool b => exact ⟨[], _, s, .bool, answers_nil_iff.mpr rfl⟩
  | null => exact ⟨[], _, s, .null, answers_nil_iff.mpr rfl⟩
  | cat first rest =>
    obtain ⟨t, head, s₁, hfirst, hs₁⟩ := exists_asks scope .plain first s
    obtain ⟨t', tail, s', hrest, hs'⟩ := exists_asksAll scope rest s₁
    exact ⟨t ++ t', _, s', .cat hfirst hrest, answers_append_iff.mpr ⟨s₁, hs₁, hs'⟩⟩
  | choose condition accepted rejected =>
    obtain ⟨t, held, s₁, hcondition, hs₁⟩ := exists_asks scope .plain condition s
    by_cases hheld : held.isTruthy = true
    · obtain ⟨t', v, s', hbranch, hs'⟩ := exists_asks scope mode accepted s₁
      exact ⟨t ++ t', v, s', .accepted hcondition hheld hbranch,
        answers_append_iff.mpr ⟨s₁, hs₁, hs'⟩⟩
    · obtain ⟨t', v, s', hbranch, hs'⟩ := exists_asks scope mode rejected s₁
      exact ⟨t ++ t', v, s', .rejected hcondition (Bool.not_eq_true _ ▸ hheld) hbranch,
        answers_append_iff.mpr ⟨s₁, hs₁, hs'⟩⟩
  | math body =>
    obtain ⟨t, v, s', hbody, hs'⟩ := exists_asks scope .math body s
    exact ⟨t, _, s', .math hbody, hs'⟩
  | date body =>
    obtain ⟨t, v, s', hbody, hs'⟩ := exists_asks scope .date body s
    exact ⟨t, _, s', .date hbody, hs'⟩
  | arithmetic op left right =>
    obtain ⟨t, l, s₁, hleft, hs₁⟩ := exists_asks scope mode left s
    obtain ⟨t', r, s', hright, hs'⟩ := exists_asks scope mode right s₁
    exact ⟨t ++ t', _, s', .arithmetic hleft hright, answers_append_iff.mpr ⟨s₁, hs₁, hs'⟩⟩
  | comparison op left right =>
    obtain ⟨t, l, s₁, hleft, hs₁⟩ := exists_asks scope mode left s
    obtain ⟨t', r, s', hright, hs'⟩ := exists_asks scope mode right s₁
    exact ⟨t ++ t', _, s', .comparison hleft hright, answers_append_iff.mpr ⟨s₁, hs₁, hs'⟩⟩
  | negate body =>
    obtain ⟨t, v, s', hbody, hs'⟩ := exists_asks scope mode body s
    exact ⟨t, _, s', .negate hbody, hs'⟩

/-- So with formulas whose texts are joined. -/
theorem Expr.exists_asksAll (scope : String → StateM σ Json) (es : List Expr) (s : σ) :
    ∃ t text s', AsksAll es t text ∧ Answers scope s t s' := by
  cases es with
  | nil => exact ⟨[], _, s, .nil, answers_nil_iff.mpr rfl⟩
  | cons e es =>
    obtain ⟨t, head, s₁, he, hs₁⟩ := exists_asks scope .plain e s
    obtain ⟨t', tail, s', hes, hs'⟩ := exists_asksAll scope es s₁
    exact ⟨t ++ t', _, s', .cons he hes, answers_append_iff.mpr ⟨s₁, hs₁, hs'⟩⟩

end

/-- A run is what a scope that answers as in its transcript comes to. -/
lemma Asks.transcribe_eq {e : Expr} {t : Transcript} {v : Value} {s s' : σ}
    (h : Asks .plain e t v) (hanswers : Answers scope s t s') :
    e.transcribe scope s = ⟨v, t, s'⟩ := by
  have hrun : e.evaluate (recording scope) [] s = ((v, t), s') := h.replay [] hanswers
  change (⟨(e.evaluate (recording scope) [] s).1.1, (e.evaluate (recording scope) [] s).1.2,
    (e.evaluate (recording scope) [] s).2⟩ : Run σ) = ⟨v, t, s'⟩
  rw [hrun]

/-- The transcript of a run is one of the formula and leads to the value of the run, and the scope
answers as in it. -/
lemma Expr.transcribe_asks (e : Expr) (scope : String → StateM σ Json) (s : σ) :
    Asks .plain e (e.transcribe scope s).transcript (e.transcribe scope s).value ∧
      Answers scope s (e.transcribe scope s).transcript (e.transcribe scope s).state := by
  obtain ⟨t, v, s', h, hanswers⟩ := e.exists_asks scope .plain s
  rw [h.transcribe_eq hanswers]
  exact ⟨h, hanswers⟩

end Replay

/-! ### Names -/

mutual

/-- The names of a transcript are mentioned by the formula, in this order.

**Proof sketch.** By the way in which the transcript is made. A choice leaves the names of one
branch out, and the other ways ask for the names of all parts. -/
theorem Asks.names_sublist {mode : Mode} {e : Expr} {t : Transcript} {v : Value}
    (h : Asks mode e t v) : t.names.Sublist e.mentions := by
  cases h with
  | ident => exact .refl _
  | text | number | duration | bool | null => exact .refl _
  | cat hfirst hrest =>
    rw [Transcript.names_append, Expr.mentions]
    exact hfirst.names_sublist.append hrest.names_sublist
  | accepted hcondition _ hbranch =>
    rw [Transcript.names_append, Expr.mentions, List.append_assoc]
    exact hcondition.names_sublist.append
      (hbranch.names_sublist.trans (List.sublist_append_left _ _))
  | rejected hcondition _ hbranch =>
    rw [Transcript.names_append, Expr.mentions, List.append_assoc]
    exact hcondition.names_sublist.append
      (hbranch.names_sublist.trans (List.sublist_append_right _ _))
  | math hbody | date hbody | negate hbody =>
    rw [Expr.mentions]
    exact hbody.names_sublist
  | arithmetic hleft hright | comparison hleft hright =>
    rw [Transcript.names_append, Expr.mentions]
    exact hleft.names_sublist.append hright.names_sublist

/-- So with formulas whose texts are joined. -/
theorem AsksAll.names_sublist {es : List Expr} {t : Transcript} {text : String}
    (h : AsksAll es t text) : t.names.Sublist (Expr.mentionsAll es) := by
  cases h with
  | nil => exact .refl _
  | cons he hes =>
    rw [Transcript.names_append, Expr.mentionsAll]
    exact he.names_sublist.append hes.names_sublist

end

/-! ### Evaluations and their transcripts -/

/-- A recorded computation does what the computation does that is not recorded. -/
def unrecorded : Simulation (StateT Transcript (StateM σ)) (StateM σ) where
  Related x y := ∀ before s, ((x before s).1.1, (x before s).2) = y s
  related_pure _ _ _ := rfl
  related_bind {_ _ x y f g} hx hf before s := by
    have hstep := hf (x before s).1.1 (x before s).1.2 (x before s).2
    change ((f (x before s).1.1 (x before s).1.2 (x before s).2).1.1,
      (f (x before s).1.1 (x before s).1.2 (x before s).2).2) = g (y s).1 (y s).2
    rw [hstep, ← hx before s]

/-- A scope that answers as in a transcript of the formula leads to its value. -/
lemma Asks.evaluateIn_eq {scope : String → StateM σ Json} {mode : Mode} {e : Expr}
    {t : Transcript} {v : Value} {s s' : σ} (h : Asks mode e t v)
    (hanswers : Answers scope s t s') :
    e.evaluateIn scope mode s = (v, s') := by
  have hrelated : unrecorded.Related (e.evaluateIn (recording scope) mode)
      (e.evaluateIn scope mode) := Expr.evaluateIn_related unrecorded mode e fun _ _ _ _ => rfl
  rw [← hrelated [] s, h.replay [] hanswers]

/-- Writing down what an evaluation asks for changes neither its value nor what it leaves behind. -/
lemma Expr.evaluate_eq_transcribe (e : Expr) (scope : String → StateM σ Json) (s : σ) :
    e.evaluate scope s = ((e.transcribe scope s).value, (e.transcribe scope s).state) := by
  obtain ⟨hasks, hanswers⟩ := e.transcribe_asks scope s
  exact hasks.evaluateIn_eq hanswers

/-- An evaluation asks its scope for identifiers of the formula only, from left to right, and of a
choice for those of the condition and of the branch that it chooses. Any scope that gives the same
answers to the names of this run is asked for these names, in the same order, and leads to the same
value.

**Proof sketch.** The transcript of the run is one of the formula, and the names of those are
mentioned by the formula, in this order. Another scope that gives its answers to its names leads to
this transcript too. -/
theorem Expr.transcribe_lawful (e : Expr) (scope : String → StateM σ Json) (s : σ) :
    let run := e.transcribe scope s
    e.evaluate scope s = (run.value, run.state) ∧
      run.transcript.names.mapM scope s = (run.transcript.answers, run.state) ∧
      (∀ name ∈ run.transcript.names, name ∈ e.identifiers) ∧
      run.transcript.names.Sublist e.mentions ∧
      Asks .plain e run.transcript run.value ∧
      ∀ {τ : Type} (scope' : String → StateM τ Json) (u : τ),
        (run.transcript.names.mapM scope' u).1 = run.transcript.answers →
          (e.evaluate scope' u).1 = run.value ∧
          (e.transcribe scope' u).transcript = run.transcript := by
  intro run
  obtain ⟨hasks, hanswers⟩ := e.transcribe_asks scope s
  refine ⟨e.evaluate_eq_transcribe scope s, hanswers, ?_, hasks.names_sublist, hasks, ?_⟩
  · intro name hname
    exact mem_identifiers.mpr (hasks.names_sublist.subset hname)
  · intro τ scope' u hsame
    have hanswers' : Answers scope' u run.transcript (run.transcript.names.mapM scope' u).2 :=
      Prod.ext hsame rfl
    rw [e.evaluate_eq_transcribe scope' u, hasks.transcribe_eq hanswers']
    exact ⟨rfl, rfl⟩

/-- The look-ups of a scope whose answers change: the first is answered with null, later ones with
how many there have been before. -/
def counted : String → StateM Nat Json := fun _ n =>
  (if n = 0 then .null else .ofInt n, n + 1)

/-- A choice whose condition is null asks for the attribute of its other branch, whichever scope
gives the answers. -/
theorem choice_asks :
    let choice := Expr.choose (.ident "flag") (.ident "left") (.ident "right")
    ((choice.transcribe counted 0).transcript.names.mapM
        (listed [("left", .ofInt 7), ("right", .ofInt 1)]) ()).1 =
      (choice.transcribe counted 0).transcript.answers ∧
    (choice.transcribe counted 0).transcript.names = ["flag", "right"] ∧
    (choice.transcribe (listed [("left", .ofInt 7), ("right", .ofInt 1)]) ()).transcript =
      (choice.transcribe counted 0).transcript := by
  intro choice
  have hsame : ((choice.transcribe counted 0).transcript.names.mapM
        (listed [("left", .ofInt 7), ("right", .ofInt 1)]) ()).1 =
      (choice.transcribe counted 0).transcript.answers := rfl
  obtain ⟨-, -, -, -, -, hreplay⟩ := choice.transcribe_lawful counted 0
  exact ⟨hsame, rfl, (hreplay _ () hsame).2⟩

/-! ### Reached attributes -/

section Reached

variable {scope : String → StateM σ Json} {entry : String × Json}

/-- An evaluation comes to a look-up with this name and this answer. -/
def Looks (scope : String → StateM σ Json) (now : Moment σ) (entry : String × Json) : Prop :=
  ∃ path mode s, Reaches scope now path ⟨mode, .ident entry.1, s⟩ ∧ (scope entry.1 s).1 = entry.2

/-- An evaluation looks up what the attribute that it is, or a part that it enters, looks up. -/
lemma looks_iff {now : Moment σ} : Looks scope now entry ↔
    (now.part = .ident entry.1 ∧ (scope entry.1 now.state).1 = entry.2) ∨
      ∃ step next, Enters scope now step next ∧ Looks scope next entry := by
  constructor
  · rintro ⟨path, mode, s, hreached, hanswer⟩
    cases hreached with
    | here => exact .inl ⟨rfl, hanswer⟩
    | step h hlater => exact .inr ⟨_, _, h, _, _, _, hlater, hanswer⟩
  · rintro (⟨hpart, hanswer⟩ | ⟨step, next, h, path, mode, s, hlater, hanswer⟩)
    · obtain ⟨mode, e, s⟩ := now
      simp only at hpart hanswer
      subst hpart
      exact ⟨[], mode, s, .here, hanswer⟩
    · exact ⟨step :: path, mode, s, .step h hlater, hanswer⟩

/-- What joined texts leave behind is what the texts after the first leave behind. -/
lemma joinIn_cons_snd (e : Expr) (es : List Expr) (s : σ) :
    (Expr.joinIn scope (e :: es) s).2 =
      (Expr.joinIn scope es (e.evaluateIn scope .plain s).2).2 := by
  rw [Expr.joinIn]
  rfl

section Parts

variable {mode : Mode} {s : σ}

/-- A look-up looks up its own name. -/
lemma looks_ident {name : String} :
    Looks scope ⟨mode, .ident name, s⟩ entry ↔ (name, (scope name s).1) = entry := by
  rw [looks_iff]
  constructor
  · rintro (⟨hname, hanswer⟩ | ⟨_, _, h, -⟩)
    · obtain ⟨rfl⟩ := hname
      exact Prod.ext rfl hanswer
    · cases h
  · rintro rfl
    exact .inl ⟨rfl, rfl⟩

/-- An evaluation that is no look-up looks up what a part that it enters looks up. -/
lemma looks_part {e : Expr} (he : ∀ name, e ≠ .ident name) :
    Looks scope ⟨mode, e, s⟩ entry ↔
      ∃ step next, Enters scope ⟨mode, e, s⟩ step next ∧ Looks scope next entry := by
  rw [looks_iff]
  constructor
  · rintro (⟨hname, -⟩ | h)
    · exact absurd hname (he _)
    · exact h
  · exact .inr

/-- Joined texts look up what each of them does, in the state that those before it leave. -/
lemma looks_cat {first : Expr} {rest : List Expr} :
    Looks scope ⟨mode, .cat first rest, s⟩ entry ↔
      ∃ before e after, first :: rest = before ++ e :: after ∧
        Looks scope ⟨.plain, e, (Expr.joinIn scope before s).2⟩ entry := by
  rw [looks_part (by simp)]
  constructor
  · rintro ⟨_, _, h, hlooks⟩
    cases h with
    | argument hparts => exact ⟨_, _, _, hparts, hlooks⟩
  · rintro ⟨before, e, after, hparts, hlooks⟩
    exact ⟨_, _, .argument hparts, hlooks⟩

/-- Of several formulas the evaluation of a later one starts from where the first has left off. -/
lemma looks_first {e : Expr} {es : List Expr} :
    (∃ before e' after, e :: es = before ++ e' :: after ∧
        Looks scope ⟨.plain, e', (Expr.joinIn scope before s).2⟩ entry) ↔
      Looks scope ⟨.plain, e, s⟩ entry ∨
        ∃ before e' after, es = before ++ e' :: after ∧
          Looks scope ⟨.plain, e', (Expr.joinIn scope before
            (e.evaluateIn scope .plain s).2).2⟩ entry := by
  constructor
  · rintro ⟨before, e', after, hparts, hlooks⟩
    cases before with
    | nil =>
      obtain ⟨rfl, -⟩ := List.cons.inj hparts
      exact .inl hlooks
    | cons head before =>
      obtain ⟨rfl, htail⟩ := List.cons.inj hparts
      exact .inr ⟨before, e', after, htail, by rwa [joinIn_cons_snd] at hlooks⟩
  · rintro (hlooks | ⟨before, e', after, rfl, hlooks⟩)
    · exact ⟨[], e, es, rfl, hlooks⟩
    · exact ⟨e :: before, e', after, rfl, by rwa [joinIn_cons_snd]⟩

/-- A choice looks up what its condition does and what the branch it selects does.

**Proof sketch.** A choice enters its condition and then, in the state that this leaves, the branch
that it selects. -/
lemma looks_choose {condition accepted rejected : Expr} :
    Looks scope ⟨mode, .choose condition accepted rejected, s⟩ entry ↔
      Looks scope ⟨.plain, condition, s⟩ entry ∨
        Looks scope ⟨mode, if (condition.evaluateIn scope .plain s).1.isTruthy then accepted
          else rejected, (condition.evaluateIn scope .plain s).2⟩ entry := by
  rw [looks_part (by simp)]
  constructor
  · rintro ⟨_, _, h, hlooks⟩
    cases h with
    | condition => exact .inl hlooks
    | accepted hheld => exact .inr (by rwa [if_pos hheld])
    | rejected hheld => exact .inr (by rwa [if_neg (by simp [hheld])])
  · rintro (hlooks | hlooks)
    · exact ⟨_, _, .condition, hlooks⟩
    · by_cases hheld : (condition.evaluateIn scope .plain s).1.isTruthy = true
      · rw [if_pos hheld] at hlooks
        exact ⟨_, _, .accepted hheld, hlooks⟩
      · rw [if_neg hheld] at hlooks
        exact ⟨_, _, .rejected (by simpa using hheld), hlooks⟩

/-- Of two operands the right one is evaluated from where the left one has left off. -/
lemma looks_operands {e left right : Expr} (he : ∀ name, e ≠ .ident name)
    (hleft : Enters scope ⟨mode, e, s⟩ .operand ⟨mode, left, s⟩)
    (hright : Enters scope ⟨mode, e, s⟩ .operand ⟨mode, right, (left.evaluateIn scope mode s).2⟩)
    (honly : ∀ step next, Enters scope ⟨mode, e, s⟩ step next →
      next = ⟨mode, left, s⟩ ∨ next = ⟨mode, right, (left.evaluateIn scope mode s).2⟩) :
    Looks scope ⟨mode, e, s⟩ entry ↔
      Looks scope ⟨mode, left, s⟩ entry ∨
        Looks scope ⟨mode, right, (left.evaluateIn scope mode s).2⟩ entry := by
  rw [looks_part he]
  constructor
  · rintro ⟨step, next, h, hlooks⟩
    rcases honly step next h with rfl | rfl
    · exact .inl hlooks
    · exact .inr hlooks
  · rintro (hlooks | hlooks)
    · exact ⟨_, _, hleft, hlooks⟩
    · exact ⟨_, _, hright, hlooks⟩

/-- A formula around one other looks up what that one looks up. -/
lemma looks_body {mode' : Mode} {step : Step} {e body : Expr} (he : ∀ name, e ≠ .ident name)
    (hbody : Enters scope ⟨mode, e, s⟩ step ⟨mode', body, s⟩)
    (honly : ∀ step next, Enters scope ⟨mode, e, s⟩ step next → next = ⟨mode', body, s⟩) :
    Looks scope ⟨mode, e, s⟩ entry ↔ Looks scope ⟨mode', body, s⟩ entry := by
  rw [looks_part he]
  constructor
  · rintro ⟨step, next, h, hlooks⟩
    rwa [honly step next h] at hlooks
  · intro hlooks
    exact ⟨_, _, hbody, hlooks⟩

end Parts

mutual

/-- The entries of a transcript are the look-ups that the evaluation comes to.

**Proof sketch.** Induction on the formula: its evaluation enters its parts from where the look-ups
of the parts before have left off, which is where the transcripts of these parts start. -/
theorem Asks.mem_iff {mode : Mode} {e : Expr} {t : Transcript} {v : Value} {s s' : σ}
    (h : Asks mode e t v) (hanswers : Answers scope s t s') :
    entry ∈ t ↔ Looks scope ⟨mode, e, s⟩ entry := by
  cases e with
  | ident name =>
    cases h
    rw [answers_singleton_iff] at hanswers
    rw [looks_ident, hanswers, List.mem_singleton, eq_comm]
  | text | number | duration | bool | null =>
    cases h
    rw [looks_part (by simp)]
    constructor
    · intro hentry
      cases hentry
    · rintro ⟨_, _, hpart, -⟩
      cases hpart
  | cat first rest =>
    cases h with
    | cat hfirst hrest =>
      obtain ⟨s₁, hs₁, hs'⟩ := answers_append_iff.mp hanswers
      rw [looks_cat, List.mem_append, looks_first, hfirst.mem_iff hs₁, hrest.mem_iff hs',
        hfirst.evaluateIn_eq hs₁]
  | choose condition accepted rejected =>
    cases h with
    | accepted hcondition hheld hbranch =>
      obtain ⟨s₁, hs₁, hs'⟩ := answers_append_iff.mp hanswers
      rw [looks_choose, List.mem_append, hcondition.mem_iff hs₁, hbranch.mem_iff hs',
        hcondition.evaluateIn_eq hs₁, if_pos hheld]
    | rejected hcondition hheld hbranch =>
      obtain ⟨s₁, hs₁, hs'⟩ := answers_append_iff.mp hanswers
      rw [looks_choose, List.mem_append, hcondition.mem_iff hs₁, hbranch.mem_iff hs',
        hcondition.evaluateIn_eq hs₁, if_neg (by simp [hheld])]
  | math body =>
    cases h with
    | math hbody =>
      rw [hbody.mem_iff hanswers]
      exact (looks_body (by simp) .math fun _ _ h => by cases h; rfl).symm
  | date body =>
    cases h with
    | date hbody =>
      rw [hbody.mem_iff hanswers]
      exact (looks_body (by simp) .date fun _ _ h => by cases h; rfl).symm
  | arithmetic op left right =>
    cases h with
    | arithmetic hleft hright =>
      obtain ⟨s₁, hs₁, hs'⟩ := answers_append_iff.mp hanswers
      rw [looks_operands (by simp) .left .right (fun _ _ h => by cases h <;> simp),
        List.mem_append, hleft.mem_iff hs₁, hright.mem_iff hs', hleft.evaluateIn_eq hs₁]
  | comparison op left right =>
    cases h with
    | comparison hleft hright =>
      obtain ⟨s₁, hs₁, hs'⟩ := answers_append_iff.mp hanswers
      rw [looks_operands (by simp) .compareLeft .compareRight (fun _ _ h => by cases h <;> simp),
        List.mem_append, hleft.mem_iff hs₁, hright.mem_iff hs', hleft.evaluateIn_eq hs₁]
  | negate body =>
    cases h with
    | negate hbody =>
      rw [hbody.mem_iff hanswers]
      exact (looks_body (by simp) .negate fun _ _ h => by cases h; rfl).symm

/-- So with formulas whose texts are joined. -/
theorem AsksAll.mem_iff {es : List Expr} {t : Transcript} {text : String} {s s' : σ}
    (h : AsksAll es t text) (hanswers : Answers scope s t s') :
    entry ∈ t ↔ ∃ before e after, es = before ++ e :: after ∧
      Looks scope ⟨.plain, e, (Expr.joinIn scope before s).2⟩ entry := by
  cases es with
  | nil =>
    cases h
    simp
  | cons e es =>
    cases h with
    | cons he hes =>
      obtain ⟨s₁, hs₁, hs'⟩ := answers_append_iff.mp hanswers
      rw [looks_first, List.mem_append, he.mem_iff hs₁, hes.mem_iff hs', he.evaluateIn_eq hs₁]

end

/-- An evaluation asks for the attributes that it comes to, and for no others. -/
theorem Expr.mem_transcript_iff {e : Expr} {s : σ} :
    entry ∈ (e.transcribe scope s).transcript ↔
      ∃ path mode s', Reaches scope ⟨.plain, e, s⟩ path ⟨mode, .ident entry.1, s'⟩ ∧
        (scope entry.1 s').1 = entry.2 := by
  obtain ⟨hasks, hanswers⟩ := e.transcribe_asks scope s
  exact hasks.mem_iff hanswers

end Reached

end Cohort.Formula
