import Mathlib.Tactic.Lemma
import Cohort.Service.Basic
set_option relaxedAutoImplicit false
set_option autoImplicit false

/-!
# Requests that are alike, and requests that are answered

Two requests are alike if they make the same event queries, are refused for the same causes, and
otherwise have answers that are related in some way. Requests whose steps are alike one by one are
alike. A request whose steps are all answered is answered, after the queries of all its steps.

## Main definitions

* `Cohort.Service.Request.Answered` — outcomes that are alike.
* `Cohort.Service.Request.Alike` — requests that are alike.
* `Cohort.Service.Request.Gives` — a request that is answered after certain queries.

## Main results

* `Cohort.Service.Request.Alike.bind` — steps in a row.
* `Cohort.Service.Request.Gives.bind`, `Cohort.Service.Request.Gives.mapM` — steps in a row, and for
  every element of a list.
-/

namespace Cohort.Service.Request

/-- Outcomes of requests that made the same queries: both are refused for the same cause, or both
are answered and the answers are related. -/
inductive Answered {α β : Type} (R : α → β → Prop) :
    Result α × List EventQuery → Result β × List EventQuery → Prop
  | refused (e : Error) (queries : List EventQuery) :
      Answered R (.error e, queries) (.error e, queries)
  | answered {a : α} {b : β} (related : R a b) (queries : List EventQuery) :
      Answered R (.ok a, queries) (.ok b, queries)

/-- Requests that make the same queries, are refused for the same causes and otherwise have related
answers. -/
def Alike {α β : Type} (R : α → β → Prop) (x : Request α) (y : Request β) : Prop :=
  ∀ queries, Answered R (x.run queries) (y.run queries)

variable {α β γ δ : Type} {R : α → β → Prop} {S : γ → δ → Prop} {x : Request α} {y : Request β}

/-- A step that follows on a request is made if the request is answered. -/
lemma run_bind (x : Request α) (f : α → Request γ) (queries : List EventQuery) :
    (x >>= f).run queries =
      match (x.run queries).1 with
      | .ok a => (f a).run (x.run queries).2
      | .error e => (.error e, (x.run queries).2) := by
  change ExceptT.bindCont f (x.run queries).1 (x.run queries).2 = _
  cases (x.run queries).1 with
  | error e => rfl
  | ok a => rfl

/-- A request is like itself. -/
lemma Alike.refl (x : Request α) : Alike Eq x x := by
  intro queries
  rcases x.run queries with ⟨e | a, made⟩
  · exact .refused e made
  · exact .answered rfl made

/-- Requests that give related answers at once are alike. -/
lemma Alike.pure {a : α} {b : β} (h : R a b) : Alike R (Pure.pure a) (Pure.pure b) :=
  fun queries => .answered h queries

/-- Requests that are alike stay so if related answers lead on to requests that are alike. -/
lemma Alike.bind {f : α → Request γ} {g : β → Request δ} (hx : Alike R x y)
    (hf : ∀ a b, R a b → Alike S (f a) (g b)) : Alike S (x >>= f) (y >>= g) := by
  intro queries
  rw [run_bind, run_bind]
  have hanswered := hx queries
  generalize x.run queries = left at hanswered
  generalize y.run queries = right at hanswered
  cases hanswered with
  | refused e made => exact .refused e made
  | answered related made => exact hf _ _ related made

/-- Requests that begin with the same step. -/
lemma Alike.bind_left {f : α → Request γ} {g : α → Request δ}
    (hf : ∀ a, Alike S (f a) (g a)) : Alike S (x >>= f) (x >>= g) :=
  (Alike.refl x).bind fun a _ hab => hab ▸ hf a

/-- If one of two requests that are alike is answered, then so is the other, after the same
queries. -/
lemma Alike.answer_eq_ok (h : Alike R x y) {a : α} {queries : List EventQuery}
    (hx : x.answer = (.ok a, queries)) : ∃ b, y.answer = (.ok b, queries) ∧ R a b := by
  have hanswered := h []
  unfold answer at hx ⊢
  rw [hx] at hanswered
  generalize y.run [] = right at hanswered
  cases hanswered with
  | answered related made => exact ⟨_, rfl, related⟩

/-! ### Requests that are answered -/

/-- A request that is answered and makes certain queries, whatever was asked before. -/
def Gives {α : Type} (x : Request α) (a : α) (asked : List EventQuery) : Prop :=
  ∀ queries, x.run queries = (.ok a, queries ++ asked)

variable {a : α} {b : β} {asked more : List EventQuery}

/-- A request that is answered has its answer and its queries. -/
lemma Gives.answer (h : x.Gives a asked) : x.answer = (.ok a, asked) := h []

/-- An answer at once makes no query. -/
lemma gives_pure (a : α) : Gives (pure a) a [] := fun queries => by
  rw [List.append_nil]
  rfl

/-- A request that follows on an answered one makes its queries after those. -/
lemma Gives.bind {f : α → Request β} (hx : x.Gives a asked) (hf : (f a).Gives b more) :
    (x >>= f).Gives b (asked ++ more) := by
  intro queries
  rw [run_bind, hx queries]
  simp only
  rw [hf, List.append_assoc]

/-- What is made of an answer takes no further query. -/
lemma Gives.map {f : α → β} (hx : x.Gives a asked) :
    (x >>= fun a => pure (f a)).Gives (f a) asked := by
  have h := hx.bind (f := fun a => pure (f a)) (gives_pure (f a))
  rwa [List.append_nil] at h

/-- A step that succeeds without a query. -/
lemma gives_of {result : Result α} (h : result = .ok a) : (Request.of result).Gives a [] := by
  rw [h]
  exact gives_pure a

/-- A request goes on after a step that succeeds without a query. -/
lemma gives_of_bind {result : Result α} {f : α → Request β} (h : result = .ok a)
    (hf : (f a).Gives b asked) : (Request.of result >>= f).Gives b asked :=
  (gives_of h).bind hf

/-- A request that starts with a step without a query is answered if the step succeeds and the rest
is answered. -/
lemma answer_of_bind_eq_ok {result : Result α} {f : α → Request β} {queries : List EventQuery} :
    (Request.of result >>= f).answer = (.ok b, queries) ↔
      ∃ a, result = .ok a ∧ (f a).answer = (.ok b, queries) := by
  unfold answer
  rw [run_bind]
  constructor
  · intro h
    cases result with
    | error e => cases h
    | ok a => exact ⟨a, rfl, h⟩
  · rintro ⟨a, rfl, h⟩
    exact h

/-- Requests made for every element of a list are answered in its order, after all their queries.

**Proof sketch.** Induction on the list. -/
lemma Gives.mapM {ι : Type} {f : ι → Request α} {g : ι → α} {q : ι → List EventQuery}
    {as : List ι} (h : ∀ i ∈ as, (f i).Gives (g i) (q i)) :
    (as.mapM f).Gives (as.map g) (as.flatMap q) := by
  induction as with
  | nil =>
    rw [List.mapM_nil]
    exact gives_pure []
  | cons i as ih =>
    rw [List.mapM_cons]
    have hrest : (as.mapM f).Gives (as.map g) (as.flatMap q) :=
      ih fun j hj => h j (List.mem_cons_of_mem _ hj)
    exact (h i List.mem_cons_self).bind hrest.map

end Cohort.Service.Request
