import Mathlib.Data.List.Pairwise
import Mathlib.Tactic.Lemma
import Cohort.Proofs.Aggregate.Cap
import Cohort.Proofs.Aggregate.Chronology
import Cohort.Proofs.Aggregate.Distinct
set_option relaxedAutoImplicit false
set_option autoImplicit false

/-!
# The order of arrival

Events may arrive in another order than they were done. Counts do not depend on the order at all,
since they count elements and classes of a list. The touches and the most frequent value are read
off the chronological order, which is determined by the orders in which simultaneous events arrive.
So they do not change as long as simultaneous events do not change places, and this is so through
windows and constraints if the scan does not stop early.

## Main definitions

* `Cohort.Aggregate.KeepsTies` — another order of arrival that keeps that of simultaneous events.
* `Cohort.Aggregate.SameResults` — operations that do not depend on which of two orders it is.

## Main results

* `Cohort.Aggregate.KeepsTies.chronological_eq` — the chronological order is not changed.
* `Cohort.Aggregate.compute_rearranged` — aggregates that do not depend on the order of arrival. -/

namespace Cohort.Aggregate

variable {events arranged before after : List Event} {e e' : Event} {t : Instant}
  {operation : Operation} {property : Option String} {grouping : Grouping}

/-! ### Simultaneous events -/

/-- Events are arranged so that those of one time arrive in the same order as before. -/
def KeepsTies (events arranged : List Event) : Prop :=
  ∀ t, arranged.filter (·.timestamp = t) = events.filter (·.timestamp = t)

namespace KeepsTies

/-- Events that are arranged can be arranged back. -/
lemma symm (h : KeepsTies events arranged) : KeepsTies arranged events := fun t => (h t).symm

/-- Two events of different times may change places. -/
lemma swap (h : e.timestamp ≠ e'.timestamp) (before after : List Event) :
    KeepsTies (before ++ e :: e' :: after) (before ++ e' :: e :: after) := by
  intro t
  rw [List.filter_append, List.filter_append]
  congr 1
  by_cases he : e.timestamp = t
  · have he' : e'.timestamp ≠ t := fun he' => h (he.trans he'.symm)
    simp [he, he']
  · simp [List.filter_cons, he]

/-- What is kept of the events is arranged in the same way. -/
lemma filter (h : KeepsTies events arranged) (p : Event → Bool) :
    KeepsTies (events.filter p) (arranged.filter p) := by
  intro t
  rw [List.filter_comm, h t, List.filter_comm]

/-- No event gets lost when events are arranged. -/
lemma subset (h : KeepsTies events arranged) (he : e ∈ events) : e ∈ arranged := by
  have hmem : e ∈ events.filter (·.timestamp = e.timestamp) := List.mem_filter.2 ⟨he, by simp⟩
  rw [← h] at hmem
  exact List.mem_of_mem_filter hmem

/-- Events in the order of time are determined by the orders of simultaneous events.

**Proof sketch.** Induction on the events. The first events of both lists have the same time, since
neither can come later than the other one; so they are the first events of this time, and these are
the same. -/
theorem eq_of_pairwise (h : KeepsTies events arranged)
    (hevents : events.Pairwise fun a b => a.timestamp.place ≤ b.timestamp.place)
    (harranged : arranged.Pairwise fun a b => a.timestamp.place ≤ b.timestamp.place) :
    arranged = events := by
  induction events generalizing arranged with
  | nil =>
    rw [List.eq_nil_iff_forall_not_mem]
    exact fun e he => List.not_mem_nil (h.symm.subset he)
  | cons e events ih =>
    cases arranged with
    | nil => exact absurd (h.subset List.mem_cons_self) List.not_mem_nil
    | cons e' arranged =>
      obtain ⟨hle, htail⟩ := List.pairwise_cons.1 hevents
      obtain ⟨hle', htail'⟩ := List.pairwise_cons.1 harranged
      -- each list holds the first event of the other one, and nothing before its own first event
      have hplace : e.timestamp.place ≤ e'.timestamp.place := by
        obtain rfl | hmem := List.mem_cons.1 (h.symm.subset List.mem_cons_self)
        · exact le_rfl
        · exact hle _ hmem
      have hplace' : e'.timestamp.place ≤ e.timestamp.place := by
        obtain rfl | hmem := List.mem_cons.1 (h.subset List.mem_cons_self)
        · exact le_rfl
        · exact hle' _ hmem
      have htime : e'.timestamp = e.timestamp := Instant.place_inj.1 (le_antisymm hplace' hplace)
      have hfirst := h e.timestamp
      simp only [List.filter_cons, htime, decide_true, if_true] at hfirst
      obtain rfl : e' = e := (List.cons.inj hfirst).1
      have hrest : KeepsTies events arranged := by
        intro t
        by_cases ht : e'.timestamp = t
        · subst ht
          exact (List.cons.inj hfirst).2
        · have hother := h t
          simpa [ht] using hother
      rw [ih hrest htail htail']

end KeepsTies

/-! ### The chronological order -/

/-- The chronological order goes by the time of the events. -/
lemma pairwise_chronological (events : List Event) :
    (chronological events).Pairwise fun a b => a.timestamp.place ≤ b.timestamp.place := by
  obtain ⟨placed, hplaced, hsorted, -⟩ := exists_placed events
  rw [← hplaced, List.pairwise_map]
  exact hsorted.imp fun hmoment => Prod.Lex.monotone_fst_ofLex hmoment

/-- The chronological order keeps that of simultaneous events.

**Proof sketch.** Simultaneous events are in order already, so they are a sublist of what a stable
sort returns, and it returns no others of their time. -/
lemma keepsTies_chronological (events : List Event) : KeepsTies events (chronological events) := by
  intro t
  have hle {a b : Event} : (!b.timestamp.before a.timestamp) = true ↔
      a.timestamp.place ≤ b.timestamp.place := by
    rw [Bool.not_eq_true', Instant.not_before_iff]
  have hordered : (events.filter (·.timestamp = t)).Pairwise
      fun a b => (!b.timestamp.before a.timestamp) = true := by
    refine List.pairwise_of_forall_mem_list fun a ha b hb => hle.2 (le_of_eq ?_)
    rw [of_decide_eq_true (List.mem_filter.1 ha).2, of_decide_eq_true (List.mem_filter.1 hb).2]
  have hsublist : (events.filter (·.timestamp = t)).Sublist (chronological events) := by
    refine List.sublist_mergeSort ?_ ?_ hordered List.filter_sublist
    · simpa only [hle] using fun _ _ _ => le_trans
    · simpa only [Bool.or_eq_true, hle] using fun _ _ => le_total _ _
  have hall := hsublist.filter (·.timestamp = t)
  rw [List.filter_filter] at hall
  simp only [Bool.and_self] at hall
  exact (hall.eq_of_length ((List.mergeSort_perm _ _).filter _).length_eq.symm).symm

/-- The chronological order does not depend on the order of arrival but for simultaneous events. -/
theorem KeepsTies.chronological_eq (h : KeepsTies events arranged) :
    chronological arranged = chronological events := by
  refine KeepsTies.eq_of_pairwise (fun t => ?_) (pairwise_chronological _)
    (pairwise_chronological _)
  rw [keepsTies_chronological, keepsTies_chronological, h]

/-! ### Reductions -/

/-- Counts do not depend on the order of arrival.

**Proof sketch.** A count is the length of a list, or the number of its classes, and neither depends
on the order. -/
lemma reduce_perm (h : arranged.Perm events) (hcounts : operation ∈ [.count, .countUnique]) :
    reduce operation property grouping arranged = reduce operation property grouping events := by
  have hdistinct {vs ws : List Json} (hvs : vs.Perm ws) :
      (distinct vs).length = (distinct ws).length := by
    rw [length_distinct, length_distinct, List.toFinset_eq_of_perm _ _ hvs]
  obtain rfl | rfl : operation = .count ∨ operation = .countUnique := by simpa using hcounts
  · cases grouping with
    | total => rw [reduce, reduce, h.length_eq]
    | unique => rw [reduce, reduce, hdistinct (h.map _)]
  · have hvalues : (presentValues property arranged).Perm (presentValues property events) :=
      h.filterMap _
    rw [reduce, reduce, hdistinct hvalues]

/-- Touches and the most frequent value do not depend on the order of arrival but for simultaneous
events. -/
lemma reduce_keepsTies (h : KeepsTies events arranged)
    (htouches : operation ∈ [.firstTouch, .lastTouch, .top]) :
    reduce operation property grouping arranged = reduce operation property grouping events := by
  have hsame : touches property arranged = touches property events := by
    rw [touches, touches, h.chronological_eq]
  obtain rfl | rfl | rfl : operation = .firstTouch ∨ operation = .lastTouch ∨ operation = .top := by
    simpa using htouches
  all_goals rw [reduce, reduce, hsame]

/-! ### Aggregates -/

/-- An operation has the same results for events in both orders of arrival. -/
structure SameResults (operation : Operation) (events arranged : List Event) : Prop where
  /-- All events have the same value. -/
  reduced (property : Option String) (grouping : Grouping) :
    reduce operation property grouping arranged = reduce operation property grouping events
  /-- An aggregate whose scan does not stop early has the same outcome, whatever its timeframe, its
  event and its constraints are. -/
  computed (limits : ScanLimits) (now : Instant) (a : Aggregate) (hop : a.operation = operation)
    (hwhole : (a.compute limits now events).degraded = false) :
    a.compute limits now arranged = a.compute limits now events

/-- If all events fit into a scan, an aggregate reduces those that qualify, in whatever order they
arrive. So its outcome is the same if these are reduced to the same value. -/
lemma sameResults_of_reduce (h : arranged.Perm events)
    (hreduce : ∀ (p : Event → Bool) property grouping,
      reduce operation property grouping (arranged.filter p) =
        reduce operation property grouping (events.filter p)) :
    SameResults operation events arranged where
  reduced property grouping := by
    simpa only [List.filter_true] using hreduce (fun _ => true) property grouping
  computed := by
    rintro limits now a rfl hwhole
    have hafter : a.scan limits now arranged = _ := Scan.run_of_not_degraded hwhole h.length_eq.le
    have hbefore : a.scan limits now events = _ := Scan.run_of_not_degraded hwhole le_rfl
    rw [compute, compute, hafter, hbefore, hreduce, h.length_eq]

/-- Let events arrive in another order. Then the number of events, total or of distinct values, and
the number of distinct values are the same. If simultaneous events arrive in the same order as
before, the first and the last touch and the most frequent value are the same as well. This is so
for all events of a list, and for those of them that an aggregate selects by its timeframe, its
event and its constraints, unless the scan stops early. -/
theorem compute_rearranged (h : arranged.Perm events) :
    (∀ operation ∈ [Operation.count, .countUnique], SameResults operation events arranged) ∧
      (KeepsTies events arranged →
        ∀ operation ∈ [Operation.firstTouch, .lastTouch, .top],
          SameResults operation events arranged) := by
  constructor
  · intro operation hcounts
    exact sameResults_of_reduce h fun p _ _ => reduce_perm (h.filter p) hcounts
  · intro hties operation htouches
    exact sameResults_of_reduce h fun p _ _ => reduce_keepsTies (hties.filter p) htouches

/-- Two pages are visited at the same time, and a third one later. If the last visit arrives between
the first two and not before them, the first touch is the same. If all arrive in the opposite order,
there are still three pages. -/
theorem visits_rearranged :
    let early : Instant := ⟨1, 0, by decide, by decide⟩
    let late : Instant := ⟨2, 0, by decide, by decide⟩
    let now : Instant := ⟨3, 0, by decide, by decide⟩
    let visit (page : String) (time : Instant) : Event :=
      ⟨"p1", "visit", Index.ofList [("page", .string page)], time⟩
    let events := [visit "b" late, visit "a" early, visit "c" early]
    let arranged := [visit "a" early, visit "b" late, visit "c" early]
    let pages (operation : Operation) : Aggregate :=
      ⟨operation, .allTime, some "visit", some "page", .total, []⟩
    ((pages .firstTouch).compute .unlimited now events).degraded = false ∧
      ((pages .countUnique).compute .unlimited now events).degraded = false ∧
      KeepsTies events arranged ∧ arranged.Perm events ∧ events.reverse.Perm events ∧
      (pages .firstTouch).compute .unlimited now arranged =
        (pages .firstTouch).compute .unlimited now events ∧
      (pages .countUnique).compute .unlimited now events.reverse = ⟨.ofInt 3, 3, false⟩ := by
  intro early late now visit events arranged pages
  have htouch : ((pages .firstTouch).compute .unlimited now events).degraded = false := by
    decide +kernel
  have hcount : ((pages .countUnique).compute .unlimited now events).degraded = false := by
    decide +kernel
  have hties : KeepsTies events arranged :=
    KeepsTies.swap (by decide) [] [visit "c" early]
  have hperm : arranged.Perm events := List.Perm.swap _ _ _
  have hreverse := List.reverse_perm events
  refine ⟨htouch, hcount, hties, hperm, hreverse, ?_, ?_⟩
  · exact ((compute_rearranged hperm).2 hties .firstTouch (by decide)).computed _ _ _ rfl htouch
  · rw [((compute_rearranged hreverse).1 .countUnique (by decide)).computed _ _ _ rfl hcount]
    decide +kernel

end Cohort.Aggregate
