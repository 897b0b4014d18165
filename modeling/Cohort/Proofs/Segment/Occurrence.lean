import Cohort.Proofs.Aggregate.Cap
import Cohort.Proofs.Json.Count
import Cohort.Proofs.Segment.Compilation
import Cohort.Proofs.Subject.Conjunction
set_option relaxedAutoImplicit false
set_option autoImplicit false

/-!
# Done, done at least once, and not done

Whether an event was done is drafted in three ways: without a threshold, with at least one event,
and with at most none. The first is decided by whether anything was kept of the events, the others
by their number, which becomes a JSON number and then a float. All three go through the same events,
so the first two agree and the third says the opposite, whatever the timeframe and the constraints
on the event are.

## Main definitions

* `Cohort.Segment.Call.refinement` — a timeframe or a constraint as a call on a draft.
* `Cohort.Filter.withThreshold` — a filter on events with a threshold.

## Main results

* `Cohort.Segment.compile_refined` — the three drafts are accepted together, and differ in the
  threshold only.
* `Cohort.Segment.membership_event` — whom a segment with one filter on events accepts.
* `Cohort.Segment.occurrence_consistent` — the three ways agree.
-/

namespace Cohort

open Result

/-! ### Numbers of events -/

section Events

variable {events : List Event}

/-- The number of events is read as the float nearest to it. -/
lemma Aggregate.toNumber?_reduce_count (h : events.length < 2 ^ 64) :
    (reduce .count none .total events).toNumber? = some (Float.ofInt events.length) := by
  have hrange : (-0x8000000000000000 : Int) ≤ events.length ∧
      (events.length : Int) < 0x10000000000000000 := by omega
  rw [reduce, Json.ofInt, Json.Number.ofInt?, dif_pos hrange]
  rfl

/-- There is at least one event if there are any. -/
lemma Filter.acceptsEvents_atLeast_one (h : events.length < 2 ^ 64) :
    acceptsEvents (some ⟨.count, none, .atLeast, 1.0, none⟩) events =
      acceptsEvents none events := by
  simp only [acceptsEvents, Aggregate.toNumber?_reduce_count h, Threshold.isMetBy, Option.any_some]
  rw [Bool.eq_iff_iff, Json.Number.one_atMost_ofInt h, List.length_pos_iff]
  simp

/-- There is at most none if there are not. -/
lemma Filter.acceptsEvents_atMost_zero (h : events.length < 2 ^ 64) :
    acceptsEvents (some ⟨.count, none, .atMost, 0.0, none⟩) events =
      !acceptsEvents none events := by
  simp only [acceptsEvents, Aggregate.toNumber?_reduce_count h, Threshold.isMetBy, Option.any_some]
  rw [Bool.eq_iff_iff, Json.Number.ofInt_atMost_zero h, List.length_eq_zero_iff]
  simp

end Events

/-! ### Thresholds of filters -/

namespace Filter

/-- A filter on events with a threshold; one on a property as it is. -/
def withThreshold (threshold : Threshold) : Filter → Filter
  | .event name constraints _ timeframe => .event name constraints (some threshold) timeframe
  | .property name constraints => .property name constraints

/-- A threshold that is accepted changes nothing else in a filter on events, and does not decide
whether it is accepted.

**Proof sketch.** The other checks are made of the same parts, in the same order and with the same
errors. -/
lemma compile_threshold {event : String} {constraints : List Constraint.Spec}
    {timeframe : Option Timeframe.Spec} {spec : Threshold.Spec} {threshold : Threshold}
    (h : Threshold.compile spec = .ok threshold) :
    compile ⟨"event", some event, none, constraints, some spec, timeframe⟩ =
      (compile ⟨"event", some event, none, constraints, none, timeframe⟩).map
        (withThreshold threshold) := by
  have htype : Text.trim "event" = "event" := by decide +kernel
  have hsome : (some spec).mapM Threshold.compile = .ok (some threshold) := map_eq_ok.2 ⟨_, h, rfl⟩
  have hnone : (none : Option Threshold.Spec).mapM Threshold.compile = .ok none := rfl
  simp only [compile, htype, compileEvent, hsome, hnone]
  cases constraints.mapM Constraint.compile with
  | error => rfl
  | ok cs =>
    cases trimmedName? (some event) with
    | none => rfl
    | some name =>
      cases timeframe.mapM Timeframe.compile with
      | error => rfl
      | ok f => rfl

end Filter

namespace Segment

open Spec Call

/-- A timeframe or a constraint on the payload, as a call on a draft. -/
def Call.refinement : Timeframe.Spec ⊕ Constraint.Spec → Call :=
  Sum.elim .within .whereEvent

variable {first : Call} {event name : String} {initial : Option Threshold.Spec}
  {refinements : List (Timeframe.Spec ⊕ Constraint.Spec)}

/-- A refinement adds no filter, and gives no threshold and no description. -/
lemma Call.of_mem_refinements {call : Call} (h : call ∈ refinements.map Call.refinement) :
    call.isEvent = false ∧ call.addsFilter = false ∧ call.threshold? = none ∧
      call.text? = none := by
  obtain ⟨refinement, -, rfl⟩ := List.mem_map.1 h
  cases refinement <;> exact ⟨rfl, rfl, rfl, rfl⟩

/-- A draft of one event and its refinements has one filter.

**Proof sketch.** Refinements add no filter, no threshold and no text, so all of them are in the
scope of the first call. Their constraints and timeframes are what the sum holds on either side. -/
lemma drafted_refined (hevent : first.event? = some (event, initial)) :
    drafted name (first :: refinements.map Call.refinement) =
      ⟨name, none, [⟨"event", some event, none, refinements.filterMap Sum.getRight?, initial,
        (refinements.filterMap Sum.getLeft?).getLast?⟩]⟩ := by
  have hspec : ∀ s : Spec, s = ⟨s.name, s.description, s.filters⟩ := fun _ => rfl
  have hnone : filtersOf (refinements.map Call.refinement) = [] := by
    rw [← List.length_eq_zero_iff, length_filtersOf, List.countP_eq_zero]
    exact fun call hcall => Bool.eq_false_iff.1 (of_mem_refinements hcall).2.1
  have hscope : scope (refinements.map Call.refinement) = refinements.map Call.refinement := by
    refine List.takeWhile_eq_self_iff.2 fun call hcall => ?_
    rw [(of_mem_refinements hcall).1]
    rfl
  have hthresholds : (refinements.map Call.refinement).filterMap threshold? = [] :=
    List.filterMap_eq_nil_iff.2 fun call hcall => (of_mem_refinements hcall).2.2.1
  have htexts : (first :: refinements.map Call.refinement).filterMap text? = [] := by
    refine List.filterMap_eq_nil_iff.2 (List.forall_mem_cons.2 ⟨?_, fun call hcall => ?_⟩)
    · cases first with
      | did | didAtLeast | didNot => rfl
      | _ => cases hevent
    · exact (of_mem_refinements hcall).2.2.2
  have hconstraints : constraint? ∘ Call.refinement = Sum.getRight? := by
    funext refinement
    cases refinement <;> rfl
  have htimeframes : timeframe? ∘ Call.refinement = Sum.getLeft? := by
    funext refinement
    cases refinement <;> rfl
  obtain ⟨hname, hdescription⟩ := description_drafted name (first :: refinements.map refinement)
  rw [hspec (drafted _ _), hname, hdescription, htexts, filters_drafted, filtersOf,
    filter?_of_event? hevent, hnone, hscope, described, hthresholds, List.filterMap_map,
    List.filterMap_map, hconstraints, htimeframes]
  rfl

/-- The segment with a threshold in all filters on events. -/
def withThreshold (threshold : Threshold) (g : Segment) : Segment :=
  g.withFilters (g.filters.map (Filter.withThreshold threshold))

/-- Which threshold a draft of one event starts with does not decide whether it is accepted, if the
threshold is accepted on its own. -/
lemma compile_refined (id : Uuid) (now : Instant) {spec : Threshold.Spec} {threshold : Threshold}
    (hevent : first.event? = some (event, some spec))
    (h : Threshold.compile spec = .ok threshold) :
    Segment.compile id now (drafted name (first :: refinements.map Call.refinement)) =
      (Segment.compile id now
        (drafted name (.did event :: refinements.map Call.refinement))).map
          (withThreshold threshold) := by
  rw [drafted_refined hevent, drafted_refined rfl]
  simp only [Segment.compile, List.mapM_cons, List.mapM_nil, Filter.compile_threshold h]
  cases readName "name" name with
  | error => rfl
  | ok name =>
    cases Filter.compile ⟨"event", some event, none, refinements.filterMap Sum.getRight?, none,
        (refinements.filterMap Sum.getLeft?).getLast?⟩ with
    | error => rfl
    | ok filter => rfl

/-- Where the draft of an event without a threshold is accepted, there is none in its only
filter. -/
lemma exists_filters_of_compile {id : Uuid} {now : Instant} {did : Segment}
    (h : Segment.compile id now
      (drafted name (.did event :: refinements.map Call.refinement)) = .ok did) :
    ∃ name constraints timeframe, did.filters = [.event name constraints none timeframe] := by
  rw [drafted_refined rfl] at h
  obtain ⟨filters, hfilters, -, rfl⟩ := Segment.compile_eq_ok.1 h
  rw [mapM_eq_ok, List.forall₂_cons_left_iff] at hfilters
  obtain ⟨filter, rest, hfilter, hrest, rfl⟩ := hfilters
  obtain rfl := List.forall₂_nil_left_iff.1 hrest
  obtain ⟨-, cs, t, f, -, ht, -, rfl⟩ := Filter.compile_event_eq_ok.1 hfilter
  cases ht
  exact ⟨_, _, _, rfl⟩

/-- Whether a subject is a member of a segment with one filter on events is up to those that a scan
keeps.

**Proof sketch.** The segment asks for that filter alone, and the scan of the filter tells what was
kept and whether it stopped early. -/
lemma membership_event {g : Segment} {name : String} {constraints : List Constraint}
    {threshold : Option Threshold} {timeframe : Timeframe} {s : Subject} {kept : Scan}
    (h : g.filters = [.event name constraints threshold timeframe])
    (hkept : Scan.run s.limits (timeframe.window s.now) (some name) constraints s.events = kept) :
    g.membership s = ⟨Filter.acceptsEvents threshold kept.events, kept.degraded⟩ := by
  have hall : acceptsAll s g.filters =
      Filter.accepts s (.event name constraints threshold timeframe) := by
    have hpure : ∀ accepted : Bool,
        (if accepted = true then pure true else pure false : Lookup Bool) = pure accepted := by
      intro accepted
      cases accepted <;> rfl
    simp only [h, acceptsAll, List.allM_cons, List.allM_nil, hpure, bind_pure]
  rw [membership, membershipIn, hall, ← hkept]
  rfl

/-- For every event and all refinements, the drafts of those who did the event, who did it at least
once and who did not do it are refused together, with the same error, or accepted together. Then the
first two accept the same subjects, the third accepts the others, and all three say alike whether a
scan stopped early: for all definitions, profiles, events and limits at any time. A list in memory
has fewer elements than its 64-bit length can say.

**Proof sketch.** The three drafts differ in the threshold of their only filter, so the three scans
are one. The thresholds hold the number of the events that it kept, as a float, against one and
zero. -/
theorem occurrence_consistent (id : Uuid) (time : Instant) (name event : String)
    (refinements : List (Timeframe.Spec ⊕ Constraint.Spec)) :
    let compiled (first : Call) : Result Segment :=
      Segment.compile id time (drafted name (first :: refinements.map Call.refinement))
    (∃ e, compiled (.did event) = .error e ∧ compiled (.didAtLeast event 1.0) = .error e ∧
      compiled (.didNot event) = .error e) ∨
    ∃ did atLeastOnce didNot, compiled (.did event) = .ok did ∧
      compiled (.didAtLeast event 1.0) = .ok atLeastOnce ∧ compiled (.didNot event) = .ok didNot ∧
      ∀ s : Subject, s.events.length < 2 ^ 64 →
        atLeastOnce.membership s = did.membership s ∧
          (didNot.membership s).matched = !(did.membership s).matched ∧
            (didNot.membership s).degraded = (did.membership s).degraded := by
  intro compiled
  have hatLeast : compiled (.didAtLeast event 1.0) = (compiled (.did event)).map
      (withThreshold ⟨.count, none, .atLeast, 1.0, none⟩) :=
    compile_refined id time rfl (compile_atLeast 1.0)
  have hatMost : compiled (.didNot event) = (compiled (.did event)).map
      (withThreshold ⟨.count, none, .atMost, 0.0, none⟩) :=
    compile_refined id time rfl (compile_atMost 0.0)
  cases hdid : compiled (.did event) with
  | error e =>
    rw [hdid] at hatLeast hatMost
    exact .inl ⟨e, rfl, hatLeast, hatMost⟩
  | ok did =>
    rw [hdid] at hatLeast hatMost
    refine .inr ⟨did, _, _, rfl, hatLeast, hatMost, fun s hs => ?_⟩
    obtain ⟨name, constraints, timeframe, hfilters⟩ := exists_filters_of_compile hdid
    -- one scan decides about all three
    generalize hkept : Scan.run s.limits (timeframe.window s.now) (some name) constraints
      s.events = kept
    have hlength : kept.events.length < 2 ^ 64 := by
      rw [← hkept]
      exact (Scan.sublist_run _ _ _ _ _).length_le.trans_lt hs
    have hmembership := membership_event hfilters hkept
    have hrefined : ∀ threshold, (withThreshold threshold did).membership s =
        ⟨Filter.acceptsEvents (some threshold) kept.events, kept.degraded⟩ := by
      intro threshold
      refine membership_event ?_ hkept
      rw [withThreshold, withFilters, hfilters]
      rfl
    rw [hmembership, hrefined, hrefined, Filter.acceptsEvents_atLeast_one hlength,
      Filter.acceptsEvents_atMost_zero hlength]
    exact ⟨rfl, rfl, rfl⟩

/-- On a platform that is not known, in the last week; the timeframe in front is given up for it. -/
def lately : List (Timeframe.Spec ⊕ Constraint.Spec) :=
  [.inl .allTime, .inr ⟨"platform", "string", "is_not_set", []⟩, .inl lastWeek]

/-- Those who bought something lately. -/
def buyers : Segment :=
  ⟨Registry.opening.id, "buyers", none,
    [.event "purchase" [⟨"platform", .string, .isNotSet, .isNotSet⟩] none (.relative 7 .days)],
    Registry.opening.time, Registry.opening.time⟩

/-- The draft of those who bought something lately compiles to their segment. -/
lemma compile_buyers :
    Segment.compile Registry.opening.id Registry.opening.time
      (drafted "buyers" (.did "purchase" :: lately.map Call.refinement)) = .ok buyers := by
  decide +kernel

/-- The customer of the shop bought something lately, by both drafts that say so, and is not found
by the one that says the opposite. -/
theorem purchase_consistent :
    customer.events.length < 2 ^ 64 ∧ ∃ atLeastOnce didNot,
      Segment.compile Registry.opening.id Registry.opening.time
        (drafted "buyers" (.didAtLeast "purchase" 1.0 :: lately.map Call.refinement)) =
          .ok atLeastOnce ∧
      Segment.compile Registry.opening.id Registry.opening.time
        (drafted "buyers" (.didNot "purchase" :: lately.map Call.refinement)) = .ok didNot ∧
      buyers.membership customer = ⟨true, false⟩ ∧
      atLeastOnce.membership customer = ⟨true, false⟩ ∧
      (didNot.membership customer).matched = false := by
  have hlength : customer.events.length < 2 ^ 64 := by decide
  have hbuyers : buyers.membership customer = ⟨true, false⟩ := by decide
  refine ⟨hlength, ?_⟩
  obtain ⟨e, he, -⟩ | ⟨did, atLeastOnce, didNot, hdid, hatLeast, hnot, hagree⟩ :=
    occurrence_consistent Registry.opening.id Registry.opening.time "buyers" "purchase" lately
  · have hrefused := compile_buyers.symm.trans he
    cases hrefused
  · obtain rfl : buyers = did := Except.ok.inj (compile_buyers.symm.trans hdid)
    obtain ⟨hsame, hopposite, -⟩ := hagree customer hlength
    refine ⟨atLeastOnce, didNot, hatLeast, hnot, hbuyers, hsame.trans hbuyers, ?_⟩
    rw [hopposite, hbuyers]
    rfl

end Segment

end Cohort
