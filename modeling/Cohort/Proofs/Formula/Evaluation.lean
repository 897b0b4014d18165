import Mathlib.Tactic.Lemma
import Cohort.Formula.Evaluation
set_option relaxedAutoImplicit false
set_option autoImplicit false

/-!
# Two evaluations of one formula

A formula is evaluated in whatever monad its attributes are looked up in. So two evaluations with
different look-ups go through the same steps, and they can be compared step by step: whatever
relates the look-ups of the attributes that the formula mentions, pure results and steps in a row
also relates the evaluations.

## Main definitions

* `Cohort.Formula.Simulation` — a relation between the computations of two monads that pure results
  and steps in a row keep.

## Main results

* `Cohort.Formula.Expr.evaluate_related` — related look-ups give related evaluations.
* `Cohort.Formula.Expr.evaluate_congr` — an evaluation depends on the look-ups of the attributes
  that the formula mentions, and on no others.
-/

namespace Cohort.Formula

/-- A relation between the computations of two monads that holds of equal pure results, and of steps
in a row if it holds of each. -/
structure Simulation (m n : Type → Type) [Monad m] [Monad n] where
  /-- Which computations are related. -/
  Related : {α : Type} → m α → n α → Prop
  /-- A result is related to itself. -/
  related_pure : ∀ {α : Type} (a : α), Related (pure a : m α) (pure a : n α)
  /-- Related computations that go on in related ways are related. -/
  related_bind : ∀ {α β : Type} {x : m α} {y : n α} {f : α → m β} {g : α → n β},
    Related x y → (∀ a, Related (f a) (g a)) → Related (x >>= f) (y >>= g)

namespace Simulation

variable {m n : Type → Type} [Monad m] [Monad n] (sim : Simulation m n)

/-- Related computations stay related when a function is applied to their results. -/
lemma related_bind_pure {α β : Type} {x : m α} {y : n α} (h : sim.Related x y) (f : α → β) :
    sim.Related (x >>= fun a => pure (f a)) (y >>= fun a => pure (f a)) :=
  sim.related_bind h fun a => sim.related_pure (f a)

/-- Two related pairs of computations in a row are related. -/
lemma related_bind₂ {α β γ : Type} {x : m α} {y : n α} {x' : m β} {y' : n β} (h : sim.Related x y)
    (h' : sim.Related x' y') (f : α → β → γ) :
    sim.Related (x >>= fun a => x' >>= fun b => pure (f a b))
      (y >>= fun a => y' >>= fun b => pure (f a b)) :=
  sim.related_bind h fun a => sim.related_bind_pure h' (f a)

/-- What is related for each element of a list is related for all of them in a row. -/
lemma related_mapM [LawfulMonad m] [LawfulMonad n] {α β : Type} {f : α → m β} {g : α → n β}
    (h : ∀ a, sim.Related (f a) (g a)) {as : List α} : sim.Related (as.mapM f) (as.mapM g) := by
  induction as with
  | nil =>
    rw [List.mapM_nil, List.mapM_nil]
    exact sim.related_pure _
  | cons a as ih =>
    rw [List.mapM_cons, List.mapM_cons]
    exact sim.related_bind₂ (h a) ih List.cons

/-- So are tests of the elements of a list up to the first that fails. -/
lemma related_allM {α : Type} {p : α → m Bool} {q : α → n Bool} (h : ∀ a, sim.Related (p a) (q a))
    {as : List α} : sim.Related (as.allM p) (as.allM q) := by
  induction as with
  | nil => exact sim.related_pure _
  | cons a as ih =>
    refine sim.related_bind (h a) fun held => ?_
    cases held with
    | true => exact ih
    | false => exact sim.related_pure _

end Simulation

namespace Expr

/-- A formula's identifiers are the attributes that it mentions. -/
@[simp] lemma mem_identifiers {e : Expr} {name : String} :
    name ∈ e.identifiers ↔ name ∈ e.mentions := by
  simp [identifiers]

section Related

variable {m n : Type → Type} [Monad m] [Monad n] (sim : Simulation m n)
  {scope : String → m Json} {scope' : String → n Json}

mutual

/-- Related look-ups of what a formula mentions give related values inside a calculation.

**Proof sketch.** Induction on the formula. Each step of one evaluation is a step of the other: an
attribute is looked up in both, and the parts of a formula are evaluated in the same order. The two
evaluations choose the same branch of a choice, since the relation compares them result by
result. -/
theorem evaluateIn_related (mode : Mode) (e : Expr)
    (h : ∀ read ∈ e.mentions, sim.Related (scope read) (scope' read)) :
    sim.Related (e.evaluateIn scope mode) (e.evaluateIn scope' mode) := by
  cases e with
  | ident name =>
    rw [evaluateIn, evaluateIn]
    exact sim.related_bind_pure (h name (by simp [mentions])) fun v => coerce mode (.ofJson v)
  | text s => rw [evaluateIn, evaluateIn]; exact sim.related_pure _
  | number x => rw [evaluateIn, evaluateIn]; exact sim.related_pure _
  | duration x => rw [evaluateIn, evaluateIn]; exact sim.related_pure _
  | bool b => rw [evaluateIn, evaluateIn]; exact sim.related_pure _
  | null => rw [evaluateIn, evaluateIn]; exact sim.related_pure _
  | cat first rest =>
    rw [evaluateIn, evaluateIn]
    have hfirst := evaluateIn_related .plain first fun read hread =>
      h read (by simp [mentions, hread])
    have hrest := joinIn_related rest fun read hread => h read (by simp [mentions, hread])
    exact sim.related_bind₂ hfirst hrest fun head tail => Value.text (head.display ++ tail)
  | choose condition accepted rejected =>
    rw [evaluateIn, evaluateIn]
    have hcondition := evaluateIn_related .plain condition fun read hread =>
      h read (by simp [mentions, hread])
    refine sim.related_bind hcondition fun held => ?_
    split
    · exact evaluateIn_related mode accepted fun read hread => h read (by simp [mentions, hread])
    · exact evaluateIn_related mode rejected fun read hread => h read (by simp [mentions, hread])
  | math body =>
    rw [evaluateIn, evaluateIn]
    exact sim.related_bind_pure (evaluateIn_related .math body fun read hread =>
      h read (by simp [mentions, hread])) mathResult
  | date body =>
    rw [evaluateIn, evaluateIn]
    exact sim.related_bind_pure (evaluateIn_related .date body fun read hread =>
      h read (by simp [mentions, hread])) dateResult
  | arithmetic op left right =>
    rw [evaluateIn, evaluateIn]
    have hleft := evaluateIn_related mode left fun read hread => h read (by simp [mentions, hread])
    have hright := evaluateIn_related mode right fun read hread =>
      h read (by simp [mentions, hread])
    exact sim.related_bind₂ hleft hright (calculate op)
  | comparison op left right =>
    rw [evaluateIn, evaluateIn]
    have hleft := evaluateIn_related mode left fun read hread => h read (by simp [mentions, hread])
    have hright := evaluateIn_related mode right fun read hread =>
      h read (by simp [mentions, hread])
    exact sim.related_bind₂ hleft hright (compareValues op)
  | negate body =>
    rw [evaluateIn, evaluateIn]
    exact sim.related_bind_pure (evaluateIn_related mode body fun read hread =>
      h read (by simp [mentions, hread])) opposite

/-- Related look-ups of what formulas mention give related texts. -/
theorem joinIn_related (es : List Expr)
    (h : ∀ read ∈ mentionsAll es, sim.Related (scope read) (scope' read)) :
    sim.Related (joinIn scope es) (joinIn scope' es) := by
  cases es with
  | nil => rw [joinIn, joinIn]; exact sim.related_pure _
  | cons e es =>
    rw [joinIn, joinIn]
    have hhead := evaluateIn_related .plain e fun read hread =>
      h read (by simp [mentionsAll, hread])
    have htail := joinIn_related es fun read hread => h read (by simp [mentionsAll, hread])
    exact sim.related_bind₂ hhead htail fun head tail => head.display ++ tail

end

/-- Related look-ups of the attributes that a formula mentions give related evaluations. -/
theorem evaluate_related {e : Expr}
    (h : ∀ read ∈ e.identifiers, sim.Related (scope read) (scope' read)) :
    sim.Related (e.evaluate scope) (e.evaluate scope') :=
  evaluateIn_related sim .plain e fun read hread => h read (mem_identifiers.2 hread)

end Related

/-- An evaluation depends on the look-ups of the attributes that the formula mentions, and on no
others. -/
theorem evaluate_congr {m : Type → Type} [Monad m] {scope scope' : String → m Json} {e : Expr}
    (h : ∀ read ∈ e.identifiers, scope read = scope' read) : e.evaluate scope = e.evaluate scope' :=
  evaluate_related
    { Related := fun x y => x = y
      related_pure := fun _ => rfl
      related_bind := fun hx hf => by rw [hx, funext hf] } h

end Expr

end Cohort.Formula
