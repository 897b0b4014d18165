import Mathlib.Data.List.Basic
import Cohort.Proofs.Service.Request
import Cohort.Service.Sweep
set_option relaxedAutoImplicit false
set_option autoImplicit false

/-!
# What a sweep finds out

A sweep visits one profile after the other and skips those before which it was cancelled. What it
finds out about a profile that it visits depends on the profile and on its events: it is the
membership, or that the events cannot be read. A profile that is skipped is listed nowhere, and all
that is left of it is the note that the sweep was cancelled.

## Main definitions

* `Cohort.Sweep.Cancellation.visited` — the profiles of a population that a sweep visits.
* `Cohort.Service.finding` — what is found out about one profile.
* `Cohort.Sweep.ofFindings` — the outcome of a sweep from what is found out about each profile.

## Main results

* `Cohort.Sweep.ofVerdicts_eq_ofFindings` — the verdicts of a sweep tell what was found out about
  the profiles that it visits.
* `Cohort.Service.sweep_gives` — a sweep asks for the events of the profiles that it visits, and
  tells what it finds out about them.
* `Cohort.Service.sweep_answer_iff` — when and with what a sweep is answered.
-/

namespace Cohort

namespace Sweep

/-! ### Visited profiles -/

namespace Cancellation

/-- The profiles of a population that a sweep visits: all that it does not skip. -/
def visited (c : Cancellation) (population : List Profile) : List Profile :=
  (population.zipIdx.filter fun e => !c.before e.2).map Prod.fst

/-- A sweep that is not cancelled at the end was not cancelled before, and visits all profiles. -/
lemma visited_of_atEnd {c : Cancellation} (h : c.atEnd = false) (population : List Profile) :
    c.visited population = population := by
  have hbefore : ∀ place, c.before place = false := by
    intro place
    by_contra hplace
    rw [c.atEnd_of_before place (Bool.not_eq_false _ ▸ hplace)] at h
    cases h
  unfold visited
  simp only [hbefore, Bool.not_false, List.filter_true, List.zipIdx_map_fst]

/-- A profile is visited if and only if it has a place before which the sweep is not cancelled. -/
lemma mem_visited {c : Cancellation} {population : List Profile} {p : Profile} :
    p ∈ c.visited population ↔ ∃ place, population[place]? = some p ∧ c.before place = false := by
  unfold visited
  simp only [List.mem_map, List.mem_filter, Prod.exists, List.mem_zipIdx_iff_getElem?]
  simp

/-- A visited profile is one of the population. -/
lemma mem_of_mem_visited {c : Cancellation} {population : List Profile} {p : Profile}
    (h : p ∈ c.visited population) : p ∈ population := by
  obtain ⟨place, hplace, -⟩ := mem_visited.1 h
  exact List.mem_of_getElem? hplace

end Cancellation

/-! ### Findings -/

/-- The verdict about a profile that is visited, from what is found out about it: its membership,
unless its events cannot be read. -/
def Verdict.ofFinding : Option Membership → Verdict
  | some m => .evaluated m
  | none => .failed

/-- The outcome of a sweep from what is found out about each profile that it visits. -/
def ofFindings (project : String) (segment : Segment) (cancelled : Bool)
    (found : Profile → Option Membership) (visited : List Profile) : Sweep where
  projectId := project
  segmentId := segment.id
  segmentName := segment.name
  evaluated := visited.countP fun p => (found p).isSome
  members := (visited.filter fun p => (found p).any Membership.matched).map Profile.id
  degraded := (visited.filter fun p => (found p).any Membership.degraded).map Profile.id
  failed := (visited.filter fun p => (found p).isNone).map Profile.id
  cancelled := cancelled

variable (c : Cancellation) (found : Profile → Option Membership)

/-- The verdict of a sweep about the profile at a place of its population. -/
def Cancellation.verdict (e : Profile × Nat) : String × Verdict :=
  (e.1.id, if c.before e.2 then .skipped else .ofFinding (found e.1))

variable {c found} {population : List Profile}

/-- A property that skipped profiles do not have lists the visited profiles of which it was found
out. -/
lemma profilesWhere_verdict {asked : Verdict → Bool} (hskipped : asked .skipped = false) :
    profilesWhere (population.zipIdx.map (c.verdict found)) asked =
      ((c.visited population).filter fun p => asked (.ofFinding (found p))).map Profile.id := by
  unfold profilesWhere Cancellation.visited
  rw [List.filter_map, List.map_map, List.filter_map, List.map_map, List.filter_filter]
  have hasked : (fun e => asked (c.verdict found e).2) =
      fun e : Profile × Nat => asked (.ofFinding (found e.1)) && !c.before e.2 := by
    funext e
    unfold Cancellation.verdict
    cases c.before e.2 <;> simp [hskipped]
  exact congrArg (fun keep => (population.zipIdx.filter keep).map fun e => e.1.id) hasked

/-- Skipped profiles are not counted among those that were decided. -/
lemma countP_verdict :
    (population.zipIdx.map (c.verdict found)).countP (·.2.membership?.isSome) =
      (c.visited population).countP fun p => (found p).isSome := by
  unfold Cancellation.visited
  rw [List.countP_map, List.countP_map, List.countP_filter]
  refine List.countP_congr fun e _ => ?_
  unfold Cancellation.verdict
  cases hfound : found e.1 <;> cases hbefore : c.before e.2 <;>
    simp [hfound, hbefore, Verdict.ofFinding, Verdict.membership?]

/-- A sweep that skips a profile is cancelled at the end. -/
lemma cancelled_verdict :
    (c.atEnd || (population.zipIdx.map (c.verdict found)).any (·.2 = .skipped)) = c.atEnd := by
  refine Bool.or_eq_left_iff_imp.2 fun hany => ?_
  obtain ⟨v, hv, hskipped⟩ := List.any_eq_true.1 hany
  obtain ⟨e, -, rfl⟩ := List.mem_map.1 hv
  refine c.atEnd_of_before e.2 ?_
  by_contra hbefore
  unfold Cancellation.verdict at hskipped
  cases hfound : found e.1 <;> simp [hfound, hbefore, Verdict.ofFinding] at hskipped

/-- The verdicts of a sweep tell what was found out about the profiles that it visits.

**Proof sketch.** Each list is the profiles of verdicts with a property, and skipped profiles do not
have it (`profilesWhere_verdict`). A sweep that skips a profile is cancelled at the end anyway. -/
theorem ofVerdicts_eq_ofFindings (project : String) (segment : Segment) :
    ofVerdicts project segment c.atEnd (population.zipIdx.map (c.verdict found)) =
      ofFindings project segment c.atEnd found (c.visited population) := by
  have hmembership : ∀ f, (Verdict.ofFinding f).membership? = f := by
    intro f
    cases f <;> rfl
  have hfailed : ∀ f, (decide (Verdict.ofFinding f = .failed)) = f.isNone := by
    intro f
    cases f <;> rfl
  unfold ofVerdicts ofFindings
  rw [profilesWhere_verdict rfl, profilesWhere_verdict rfl, profilesWhere_verdict rfl,
    countP_verdict, cancelled_verdict]
  simp only [hmembership, hfailed]

end Sweep

namespace Service

open Request

variable {s : Service} {project : String} {segmentId : Uuid} {segment : Segment}
  {population : List Profile} {c : Sweep.Cancellation}

/-- What a sweep finds out about a profile: its membership, unless its events cannot be read. -/
def finding (s : Service) (project : String) (segment : Segment) (p : Profile) :
    Option Membership :=
  (s.source.events project (.all p.id)).toOption.map fun events =>
    segment.membership (s.subject (s.registry.snapshot project) p events)

/-- A profile is skipped without a query, or all its events are asked for. -/
lemma verdict_gives (segment : Segment) (e : Profile × Nat) :
    (s.verdict project (s.registry.snapshot project) segment (c.before e.2) e.1).Gives
      (c.verdict (s.finding project segment) e)
      (if c.before e.2 then [] else [.all e.1.id]) := by
  unfold verdict Sweep.Cancellation.verdict
  cases c.before e.2 with
  | true => exact gives_pure _
  | false =>
    intro queries
    unfold finding events
    cases s.source.events project (.all e.1.id) with
    | error _ => rfl
    | ok _ => rfl

/-- A sweep over a population asks for all events of each profile that it visits, and tells what it
finds out about each. -/
theorem sweep_gives (hsegment : s.registry.segment project segmentId = .ok segment)
    (hpopulation : s.source.profiles project = .ok population) :
    (s.sweep project segmentId c).Gives
      (.ofFindings project segment c.atEnd (s.finding project segment) (c.visited population))
      ((c.visited population).map fun p => .all p.id) := by
  have hqueries : (population.zipIdx.flatMap fun e =>
      if c.before e.2 then [] else [EventQuery.all e.1.id]) =
        (c.visited population).map fun p => .all p.id := by
    unfold Sweep.Cancellation.visited
    rw [List.map_map, ← List.filterMap_eq_map, List.filterMap_filter,
      List.filterMap_eq_flatMap_toList]
    refine List.flatMap_congr fun e _ => ?_
    cases c.before e.2 <;> rfl
  unfold sweep
  refine gives_of_bind hsegment ?_
  refine gives_of_bind hpopulation ?_
  rw [← Sweep.ofVerdicts_eq_ofFindings, ← hqueries]
  exact (Gives.mapM fun e _ => verdict_gives segment e).map

/-- A sweep is answered if and only if there is the segment and the profiles can be listed, and then
with what it finds out about those that it visits. -/
theorem sweep_answer_iff {w : Sweep} {queries : List EventQuery} :
    (s.sweep project segmentId c).answer = (.ok w, queries) ↔
      ∃ segment population, s.registry.segment project segmentId = .ok segment ∧
        s.source.profiles project = .ok population ∧
        w = .ofFindings project segment c.atEnd (s.finding project segment)
          (c.visited population) ∧
        queries = (c.visited population).map fun p => .all p.id := by
  constructor
  · intro h
    obtain ⟨segment, hsegment, h'⟩ := answer_of_bind_eq_ok.1 h
    obtain ⟨population, hpopulation, -⟩ := answer_of_bind_eq_ok.1 h'
    rw [(sweep_gives hsegment hpopulation).answer] at h
    cases h
    exact ⟨segment, population, hsegment, hpopulation, rfl, rfl⟩
  · rintro ⟨segment, population, hsegment, hpopulation, rfl, rfl⟩
    exact (sweep_gives hsegment hpopulation).answer

end Service

end Cohort
