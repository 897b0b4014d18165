import Mathlib.Data.Prod.Lex
import Mathlib.Tactic.Lemma
import Cohort.Aggregate.Reduction
import Cohort.Proofs.Instant.Order
set_option relaxedAutoImplicit false
set_option autoImplicit false

/-!
# Events in the order of time

Events arrive in some order, and simultaneous ones are told apart by it. So each event has a moment:
its time first, then the place of its arrival. No two events of a list have the same moment, and the
chronological order is that of the moments. What stands first in it among the events that count is
the event with the least moment of them, and what stands last is the one with the greatest.

## Main definitions

* `Cohort.Event.moment` — the time of an event and the place of its arrival.
* `Cohort.Aggregate.Opens`, `Cohort.Aggregate.Closes` — the first and the last of the events that
  count.

## Main results

* `Cohort.Aggregate.exists_placed` — the chronological order is that of the moments.
* `Cohort.Aggregate.opens_of_chronological`, `Cohort.Aggregate.closes_of_chronological` — what
  stands first and last in chronological order. -/

namespace Cohort

/-- The moment of an event: its time, and among simultaneous events the place of its arrival. -/
def Event.moment (e : Event) (place : ℕ) : (ℤ ×ₗ ℕ) ×ₗ ℕ :=
  toLex (e.timestamp.place, place)

/-- An event does not come after another one if its time is before that of the other one, or if it
has the same time and did not arrive later. -/
lemma Event.moment_le_iff {e e' : Event} {place place' : ℕ} :
    e.moment place ≤ e'.moment place' ↔ e.timestamp.before e'.timestamp = true ∨
      e.timestamp = e'.timestamp ∧ place ≤ place' := by
  rw [moment, moment, Prod.Lex.toLex_le_toLex, Instant.before_iff, Instant.place_inj]

/-- Only the event at the same place has the same moment. -/
lemma Event.place_eq_of_moment {e e' : Event} {place place' : ℕ}
    (h : e.moment place = e'.moment place') : place = place' :=
  congrArg (fun moment => (ofLex moment).2) h

namespace Aggregate

variable {counts : Event → Prop} {events before after : List Event} {e e' : Event}
  {place place' : ℕ}

/-- An event is the first of those that count: it has the least time of them, and of those with this
time it arrived first. -/
structure Opens (counts : Event → Prop) (events : List Event) (place : ℕ) (e : Event) : Prop where
  /-- It arrived at this place. -/
  stands : events[place]? = some e
  /-- It counts. -/
  counted : counts e
  /-- No other event that counts came earlier. -/
  least : ∀ place' e', events[place']? = some e' → counts e' → e.moment place ≤ e'.moment place'

/-- An event is the last of those that count: it has the greatest time of them, and of those with
this time it arrived last. -/
structure Closes (counts : Event → Prop) (events : List Event) (place : ℕ) (e : Event) : Prop where
  /-- It arrived at this place. -/
  stands : events[place]? = some e
  /-- It counts. -/
  counted : counts e
  /-- No other event that counts came later. -/
  greatest : ∀ place' e', events[place']? = some e' → counts e' →
    e'.moment place' ≤ e.moment place

/-- There is one event at a moment. -/
lemma eq_of_moment (hstands : events[place]? = some e) (hstands' : events[place']? = some e')
    (hmoment : e.moment place = e'.moment place') : e = e' := by
  have hplace := Event.place_eq_of_moment hmoment
  subst hplace
  exact Option.some.inj (hstands.symm.trans hstands')

/-- There is one first event. -/
lemma Opens.unique (h : Opens counts events place e) (h' : Opens counts events place' e') :
    e = e' :=
  eq_of_moment h.stands h'.stands
    (le_antisymm (h.least _ _ h'.stands h'.counted) (h'.least _ _ h.stands h.counted))

/-- There is one last event. -/
lemma Closes.unique (h : Closes counts events place e) (h' : Closes counts events place' e') :
    e = e' :=
  eq_of_moment h.stands h'.stands
    (le_antisymm (h'.greatest _ _ h.stands h.counted) (h.greatest _ _ h'.stands h'.counted))

/-! ### The chronological order -/

/-- A stable sort by time compares moments.

**Proof sketch.** The sort compares times first and arrivals second, and so do moments. An event
whose time is later, earlier or the same is one case each. -/
lemma zipIdxLE_iff (a b : Event × ℕ) :
    List.zipIdxLE (fun a b : Event => !b.timestamp.before a.timestamp) a b = true ↔
      a.1.moment a.2 ≤ b.1.moment b.2 := by
  rw [Event.moment_le_iff]
  cases hback : b.1.timestamp.before a.1.timestamp with
  | true =>
    have hlt := Instant.before_iff.1 hback
    have hfront := Instant.not_before_iff.2 hlt.le
    have hne : a.1.timestamp ≠ b.1.timestamp := fun h => hlt.ne' (Instant.place_inj.2 h)
    simp [List.zipIdxLE, hback, hfront, hne]
  | false =>
    cases hfront : a.1.timestamp.before b.1.timestamp with
    | true => simp [List.zipIdxLE, hback, hfront]
    | false =>
      have hsame : a.1.timestamp = b.1.timestamp := Instant.place_inj.1
        (le_antisymm (Instant.not_before_iff.1 hback) (Instant.not_before_iff.1 hfront))
      rw [hsame] at hback
      simp [List.zipIdxLE, hsame, hback]

/-- In chronological order, events are sorted by their moments.

**Proof sketch.** A stable sort is the sort of the elements with their places, in which no two
compare equal. -/
theorem exists_placed (events : List Event) :
    ∃ placed : List (Event × ℕ), placed.map Prod.fst = chronological events ∧
      placed.Pairwise (fun a b => a.1.moment a.2 ≤ b.1.moment b.2) ∧
      ∀ place e, (e, place) ∈ placed ↔ events[place]? = some e := by
  let le := fun a b : Event => !b.timestamp.before a.timestamp
  refine ⟨events.zipIdx.mergeSort (List.zipIdxLE le), List.mergeSort_zipIdx, ?_, ?_⟩
  · have hsorted : (events.zipIdx.mergeSort (List.zipIdxLE le)).Pairwise
        fun a b => List.zipIdxLE le a b = true := by
      apply List.pairwise_mergeSort
      · simpa only [le, zipIdxLE_iff] using fun _ _ _ => le_trans
      · simpa only [le, Bool.or_eq_true, zipIdxLE_iff] using fun _ _ => le_total _ _
    simpa only [le, zipIdxLE_iff] using hsorted
  · intro place e
    rw [List.mem_mergeSort, List.mem_zipIdx_iff_getElem?]

/-- An event that stands in chronological order comes after those that stand before it, and before
those that stand after it. -/
lemma exists_place (h : chronological events = before ++ e :: after) :
    ∃ place, events[place]? = some e ∧ ∀ place' d, events[place']? = some d →
      d ∈ before ∧ d.moment place' ≤ e.moment place ∨ d.moment place' = e.moment place ∨
        d ∈ after ∧ e.moment place ≤ d.moment place' := by
  obtain ⟨placed, hplaced, hsorted, hstands⟩ := exists_placed events
  obtain ⟨left, rest, rfl, rfl, hrest⟩ := List.map_eq_append_iff.1 (hplaced.trans h)
  obtain ⟨⟨_, place⟩, right, rfl, rfl, rfl⟩ := List.map_eq_cons_iff.1 hrest
  obtain ⟨-, hsorted, hearlier⟩ := List.pairwise_append.1 hsorted
  obtain ⟨hlater, -⟩ := List.pairwise_cons.1 hsorted
  refine ⟨place, (hstands _ _).1 (by simp), ?_⟩
  -- each event of the list has one place, so it is found among the sorted ones together with it
  intro place' d hd
  obtain hleft | hrest := List.mem_append.1 ((hstands place' d).2 hd)
  · exact .inl ⟨List.mem_map_of_mem hleft, hearlier _ hleft _ List.mem_cons_self⟩
  obtain hhead | hright := List.mem_cons.1 hrest
  · exact .inr (.inl (by rw [Prod.mk.injEq] at hhead; rw [hhead.1, hhead.2]))
  · exact .inr (.inr ⟨List.mem_map_of_mem hright, hlater _ hright⟩)

/-- An event that counts is the first such event if none counts before it in chronological order. -/
theorem opens_of_chronological (h : chronological events = before ++ e :: after) (he : counts e)
    (hbefore : ∀ d ∈ before, ¬ counts d) : ∃ place, Opens counts events place e := by
  obtain ⟨place, hstands, hmoments⟩ := exists_place h
  refine ⟨place, hstands, he, ?_⟩
  intro place' d hd hcounts
  obtain ⟨hearly, -⟩ | hsame | ⟨-, hlate⟩ := hmoments place' d hd
  · exact absurd hcounts (hbefore d hearly)
  · exact hsame.ge
  · exact hlate

/-- An event that counts is the last such event if none counts after it in chronological order. -/
theorem closes_of_chronological (h : chronological events = before ++ e :: after) (he : counts e)
    (hafter : ∀ d ∈ after, ¬ counts d) : ∃ place, Closes counts events place e := by
  obtain ⟨place, hstands, hmoments⟩ := exists_place h
  refine ⟨place, hstands, he, ?_⟩
  intro place' d hd hcounts
  obtain ⟨-, hearly⟩ | hsame | ⟨hlate, -⟩ := hmoments place' d hd
  · exact hearly
  · exact hsame.le
  · exact absurd hcounts (hafter d hlate)

end Aggregate

end Cohort
