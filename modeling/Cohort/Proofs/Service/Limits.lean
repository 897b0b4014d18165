import Cohort.Proofs.Registry.Operation
import Cohort.Proofs.Service.Sweep
import Cohort.Proofs.Store
import Cohort.Proofs.Subject.Limits
set_option relaxedAutoImplicit false
set_option autoImplicit false

/-!
# Requests within limits

A service answers requests within the limits of its settings. The same requests can be made within
other limits: they read the same profiles and events, and only the evaluations differ. An answer
that is not marked as degraded is the answer without limits, and so is what a sweep tells about the
profiles that it visits and lists neither as degraded nor as failed. A sweep that was cancelled
tells nothing about the others.

## Main definitions

* `Cohort.Service.membershipUnder`, `Cohort.Service.computedValueUnder`,
  `Cohort.Service.findingUnder` — what requests and sweeps find out within given limits.
* `Cohort.Service.Exactly` — an answer that is exact unless it is degraded.
* `Cohort.Service.ExactSweep` — a sweep that is exact but for the profiles that it skips, and those
  that it lists as degraded or as failed.

## Main results

* `Cohort.Service.membershipUnder_settings` and its like — a service's own requests are those within
  the limits of its settings.
* `Cohort.Service.answers_unlimited` — answers that are not marked as degraded are exact.
* `Cohort.Service.cancelled_sweep_skips` — a sweep that was cancelled does not list all members.
-/

namespace Cohort

namespace Service

open Request

/-! ### Requests within given limits -/

section Limits

variable (s : Service) (limits : ScanLimits) (project : String)

/-- Whether a profile is a member of a segment, within limits. -/
def membershipUnder (profileId : String) (segmentId : Uuid) : Request Membership := do
  let segment ← .of (s.registry.segment project segmentId)
  let subject ← s.load project (s.registry.snapshot project) (.all profileId)
  return segment.membership (subject.under limits)

/-- The value of a computed field of a profile, within limits. -/
def computedValueUnder (profileId field : String) : Request ComputedValue := do
  let snapshot := s.registry.snapshot project
  let subject ← s.load project snapshot (s.fieldQuery snapshot profileId field)
  .of ((subject.under limits).computedValue field Findings.none).1

/-- What a sweep finds out about a profile, within limits. -/
def findingUnder (segment : Segment) (p : Profile) : Option Membership :=
  (s.source.events project (.all p.id)).toOption.map fun events =>
    segment.membership ((s.subject (s.registry.snapshot project) p events).under limits)

/-- A service decides memberships within the limits of its settings. -/
theorem membershipUnder_settings (profileId : String) (segmentId : Uuid) :
    s.membershipUnder s.settings.limits project profileId segmentId =
      s.membership project profileId segmentId := by
  simp only [membershipUnder, membership, load, bind_assoc, pure_bind]
  rfl

/-- A service works computed fields out within the limits of its settings. -/
theorem computedValueUnder_settings (profileId field : String) :
    s.computedValueUnder s.settings.limits project profileId field =
      s.computedValue project profileId field := by
  simp only [computedValueUnder, computedValue, load, bind_assoc, pure_bind]
  rfl

/-- A service finds out about profiles within the limits of its settings. -/
theorem findingUnder_settings (segment : Segment) (p : Profile) :
    s.findingUnder s.settings.limits project segment p = s.finding project segment p :=
  rfl

variable {s limits project}

/-- The request about a profile that the source has under its identifier is answered by what a sweep
finds out about it.

**Proof sketch.** Something was found out, so the events were read. The request finds the profile
and makes the same query, and answers with what the segment says about it. -/
lemma membershipUnder_gives {segmentId : Uuid} {segment : Segment} {p : Profile} {m : Membership}
    (hsegment : s.registry.segment project segmentId = .ok segment)
    (hp : s.source.profile? project p.id = .ok (some p))
    (hfound : s.findingUnder limits project segment p = some m) :
    (s.membershipUnder limits project p.id segmentId).Gives m [.all p.id] := by
  obtain ⟨events, hevents, rfl⟩ := Option.map_eq_some_iff.1 hfound
  have hread : s.source.events project (.all p.id) = .ok events := by
    cases hresult : s.source.events project (.all p.id) with
    | error e => simp [hresult, Except.toOption] at hevents
    | ok _ => simpa [hresult, Except.toOption] using hevents
  have hprofile : (s.profile project p.id).Gives p [] := by
    unfold profile
    exact gives_of_bind hp (gives_pure p)
  have hquery : (s.events project (.all p.id)).Gives events [.all p.id] := by
    unfold Service.events
    rw [hread]
    exact fun _ => rfl
  have hload : (s.load project (s.registry.snapshot project) (.all p.id)).Gives
      (s.subject (s.registry.snapshot project) p events) [.all p.id] :=
    hprofile.bind hquery.map
  unfold membershipUnder
  exact gives_of_bind hsegment hload.map

end Limits

variable (s : Service) (project : String)

/-! ### Exact answers -/

/-- An answer with a note whether it is degraded is exact if it is the one without limits whenever
it is not degraded. -/
def Exactly {α : Type} (degraded : α → Bool) (a unlimited : α) : Prop :=
  degraded a = false → unlimited = a

/-- The membership of a subject is exact. -/
lemma exactly_membership (segment : Segment) (subject : Subject) :
    Exactly Membership.degraded (segment.membership subject)
      (segment.membership (subject.under .unlimited)) :=
  Segment.membership_unlimited

/-- The answer to a request about the membership of a profile is exact. -/
lemma membership_alike (profileId : String) (segmentId : Uuid) :
    Request.Alike (Exactly Membership.degraded) (s.membership project profileId segmentId)
      (s.membershipUnder .unlimited project profileId segmentId) :=
  .bind_left fun segment => .bind_left fun subject => .pure (exactly_membership segment subject)

/-- The answer to a request about a computed field of a profile is exact.

**Proof sketch.** The field is looked up in both subjects, which have the same definitions. If the
value has no mark, it is the unlimited one as well. -/
lemma computedValue_alike (profileId field : String) :
    Request.Alike (Exactly ComputedValue.degraded) (s.computedValue project profileId field)
      (s.computedValueUnder .unlimited project profileId field) := by
  refine .bind_left fun subject queries => ?_
  have hrun : ∀ result : Result ComputedValue,
      ExceptT.run (Request.of result) queries = (result, queries) := fun _ => rfl
  rw [hrun, hrun]
  cases hf : subject.snapshot.computed.get? field with
  | none =>
    rw [Subject.computedValue_of_eq_none hf,
      Subject.computedValue_of_eq_none (s := subject.under .unlimited) hf]
    exact .refused _ queries
  | some f =>
    have hvalue := Subject.computedValue_of_eq_some hf .none
    have hunlimited := Subject.computedValue_of_eq_some (s := subject.under .unlimited) hf .none
    rw [hvalue, hunlimited]
    refine .answered (fun hdegraded => ?_) queries
    have hexact := Subject.computedValue_unlimited (congrArg Prod.fst hvalue) hdegraded
    rw [hunlimited] at hexact
    exact Except.ok.inj hexact

/-! ### Exact sweeps -/

/-- A sweep of a population that is exact for the profiles that it visits and that it lists neither
as degraded nor as failed. -/
structure ExactSweep (segmentId : Uuid) (segment : Segment) (c : Sweep.Cancellation)
    (population : List Profile) (w : Sweep) : Prop where
  /-- It visits all profiles unless it says that it was cancelled. -/
  visited_eq : w.cancelled = false → c.visited population = population
  /-- Its members are those of the visited profiles that are members without limits. -/
  mem_members : ∀ id, id ∉ w.degraded → id ∉ w.failed →
    (id ∈ w.members ↔ ∃ p ∈ c.visited population, p.id = id ∧
      (s.findingUnder .unlimited project segment p).any Membership.matched)
  /-- It tells of each visited profile what the request about it is answered without limits, where
  the source has each profile that it lists under its identifier. -/
  answer : (∀ p ∈ population, s.source.profile? project p.id = .ok (some p)) →
    ∀ p ∈ c.visited population, p.id ∉ w.degraded → p.id ∉ w.failed →
      ∃ m, (s.membershipUnder .unlimited project p.id segmentId).answer = (.ok m, [.all p.id]) ∧
        (p.id ∈ w.members ↔ m.matched = true)

variable {s project} {segmentId : Uuid} {segment : Segment} {c : Sweep.Cancellation}
  {population : List Profile}

/-- What a sweep finds out about a profile that it lists neither as degraded nor as failed is found
out without limits as well.

**Proof sketch.** The profile was visited, so it is listed as failed if nothing is found out about
it, and as degraded if the finding has a mark. Neither is the case. -/
lemma findingUnder_unlimited {p : Profile} {w : Sweep}
    (hw : w = .ofFindings project segment c.atEnd (s.finding project segment)
      (c.visited population))
    (hp : p ∈ c.visited population) (hdegraded : p.id ∉ w.degraded) (hfailed : p.id ∉ w.failed) :
    ∃ m, s.finding project segment p = some m ∧
      s.findingUnder .unlimited project segment p = some m := by
  subst hw
  cases hfound : s.finding project segment p with
  | none =>
    refine absurd (List.mem_map_of_mem (List.mem_filter.2 ⟨hp, ?_⟩)) hfailed
    rw [hfound]
    rfl
  | some m =>
    have hnot : m.degraded = false := by
      by_contra hm
      refine hdegraded (List.mem_map_of_mem (List.mem_filter.2 ⟨hp, ?_⟩))
      rw [hfound]
      exact Bool.not_eq_false _ ▸ hm
    refine ⟨m, rfl, ?_⟩
    obtain ⟨events, hevents, rfl⟩ := Option.map_eq_some_iff.1 hfound
    unfold findingUnder
    rw [hevents, Option.map_some, exactly_membership segment _ hnot]

/-- What a sweep tells is exact.

**Proof sketch.** A profile that is visited and listed neither as degraded nor as failed was decided
by a scan that did not stop early, so it is decided the same without limits. A profile with the
identifier of a member is a member itself where the source has one profile under it. -/
lemma exactSweep_ofFindings (hsegment : s.registry.segment project segmentId = .ok segment)
    (c : Sweep.Cancellation) (population : List Profile) :
    s.ExactSweep project segmentId segment c population
      (.ofFindings project segment c.atEnd (s.finding project segment) (c.visited population)) := by
  have hmem : ∀ id,
      id ∈ (((c.visited population).filter fun p =>
        (s.finding project segment p).any Membership.matched).map Profile.id) ↔
      ∃ p ∈ c.visited population, p.id = id ∧
        (s.finding project segment p).any Membership.matched := by
    intro id
    simp only [List.mem_map, List.mem_filter]
    exact ⟨fun ⟨p, ⟨hp, hm⟩, hid⟩ => ⟨p, hp, hid, hm⟩, fun ⟨p, hp, hid, hm⟩ => ⟨p, ⟨hp, hm⟩, hid⟩⟩
  refine ⟨fun hend => c.visited_of_atEnd hend population, ?_, ?_⟩
  · intro id hdegraded hfailed
    refine (hmem id).trans (exists_congr fun p => and_congr_right fun hp => ?_)
    refine and_congr_right fun hid => ?_
    subst hid
    obtain ⟨m, hfound, hunlimited⟩ := findingUnder_unlimited rfl hp hdegraded hfailed
    rw [hfound, hunlimited]
  · intro hlisted p hp hdegraded hfailed
    obtain ⟨m, hfound, hunlimited⟩ := findingUnder_unlimited rfl hp hdegraded hfailed
    have hone := hlisted p (Sweep.Cancellation.mem_of_mem_visited hp)
    refine ⟨m, (membershipUnder_gives hsegment hone hunlimited).answer, (hmem p.id).trans ?_⟩
    constructor
    · rintro ⟨q, hq, hid, hmatched⟩
      have hother := hlisted q (Sweep.Cancellation.mem_of_mem_visited hq)
      rw [hid, hone] at hother
      cases hother
      simpa [hfound] using hmatched
    · intro hmatched
      exact ⟨p, hp, rfl, by simpa [hfound] using hmatched⟩

/-- An answer about one profile that is not marked as degraded is the answer without limits, and a
sweep, cancelled or not, tells of every profile that it visits what is answered without limits,
unless it lists it as degraded or as failed. A sweep that does not say that it was cancelled visits
all profiles.

**Proof sketch.** The request without limits reads the same profiles and events, so it gets to the
same evaluation. That ends without a note that a scan stopped early, and so it went through the same
steps as the evaluation without limits (`Lookup.Exact`). -/
theorem answers_unlimited (s : Service) (project : String) :
    (∀ profileId segmentId m queries,
      (s.membership project profileId segmentId).answer = (.ok m, queries) → m.degraded = false →
        (s.membershipUnder .unlimited project profileId segmentId).answer = (.ok m, queries)) ∧
    (∀ profileId field v queries,
      (s.computedValue project profileId field).answer = (.ok v, queries) → v.degraded = false →
        (s.computedValueUnder .unlimited project profileId field).answer = (.ok v, queries)) ∧
    ∀ segmentId (c : Sweep.Cancellation) w queries,
      (s.sweep project segmentId c).answer = (.ok w, queries) →
        ∃ segment population, s.registry.segment project segmentId = .ok segment ∧
          s.source.profiles project = .ok population ∧
          s.ExactSweep project segmentId segment c population w := by
  refine ⟨?_, ?_, ?_⟩
  · intro profileId segmentId m queries h hm
    obtain ⟨unlimited, hanswer, hexact⟩ :=
      (s.membership_alike project profileId segmentId).answer_eq_ok h
    rw [hanswer, hexact hm]
  · intro profileId field v queries h hv
    obtain ⟨unlimited, hanswer, hexact⟩ :=
      (s.computedValue_alike project profileId field).answer_eq_ok h
    rw [hanswer, hexact hv]
  · intro segmentId c w queries h
    obtain ⟨segment, population, hsegment, hpopulation, rfl, -⟩ := sweep_answer_iff.1 h
    exact ⟨segment, population, hsegment, hpopulation, exactSweep_ofFindings hsegment c population⟩

/-! ### A shop

A small service whose scans look at one event: they see all that a visitor with one visit did, and
only half of what a visitor with two visits did. -/

/-- A visit of a profile. -/
def visit (profileId : String) : Event :=
  ⟨profileId, "visit", .empty, ⟨0, 0, Instant.zero_range, Instant.zero_lt_nanos⟩⟩

/-- The number of visits. -/
def visits : ComputedField :=
  ⟨"visits", "visits", .number, .aggregate ⟨.count, .allTime, some "visit", none, .total, []⟩⟩

/-- Whoever came at least twice. -/
def regulars : Segment where
  id := ⟨1, Uuid.one_lt⟩
  name := "regulars"
  description := none
  filters := [.event "visit" [] (some ⟨.count, none, .atLeast, 2, none⟩) .allTime]
  createdAt := ⟨0, 0, Instant.zero_range, Instant.zero_lt_nanos⟩
  updatedAt := ⟨0, 0, Instant.zero_range, Instant.zero_lt_nanos⟩

/-- A service with two visitors: one came once and the other twice. -/
def shop : Service where
  settings := { evaluation := { maxEventsPerScan := 1 } }
  registry :=
    ⟨⟨[("shop", { Snapshot.empty "shop" with
      computed := ⟨[("visits", visits)], List.pairwise_singleton _ _⟩
      segments := ⟨[(regulars.id, regulars)], List.pairwise_singleton _ _⟩ })],
      List.pairwise_singleton _ _⟩⟩
  source :=
    { profile? := fun _ profileId => .ok (some ⟨profileId, none, .empty, []⟩)
      profiles := fun _ => .ok [⟨"ann", none, .empty, []⟩, ⟨"bob", none, .empty, []⟩]
      events := fun _ q =>
        .ok (if q.profileId = "ann" then [visit "ann"] else [visit "bob", visit "bob"]) }
  now := ⟨1000, 0, by decide, Instant.zero_lt_nanos⟩

/-- The visitor who came once. -/
def ann : Subject :=
  shop.subject (shop.registry.snapshot "shop") ⟨"ann", none, .empty, []⟩ [visit "ann"]

/-- Her only visit is counted. -/
lemma ann_computedValue :
    (ann.computedValue "visits" .none).1 = .ok ⟨"visits", .number, .ofInt 1, false⟩ := by
  have hcompute : Aggregate.compute ann.limits ann.now
      ⟨.count, .allTime, some "visit", none, .total, []⟩ ann.events = ⟨.ofInt 1, 1, false⟩ := by
    decide
  rw [Subject.computedValue_of_eq_some (f := visits) rfl, Subject.valueOf,
    Subject.valueOn_field (f := visits) rfl List.not_mem_nil,
    Subject.fieldValue_of_eq_none (f := visits) rfl, Subject.workOut_of_aggregate rfl, hcompute]
  rfl

/-- Asked for the visits of this customer, the shop counts one, after a single query. -/
lemma shop_computedValue :
    (shop.computedValue "shop" "ann" "visits").answer =
      (.ok ⟨"visits", .number, .ofInt 1, false⟩,
        [⟨"ann", some "visit", some (Timeframe.window shop.now .allTime)⟩]) := by
  rw [← ann_computedValue]
  rfl

/-- A sweep that is cancelled after the first profile. -/
def afterFirst : Sweep.Cancellation :=
  ⟨fun place => decide (0 < place), true, fun _ _ => rfl⟩

/-- Without limits the shop decides about Ann as it does within its own, also in a sweep that is
cancelled before it comes to Bob. -/
theorem shop_answers_unlimited :
    (shop.membershipUnder .unlimited "shop" "ann" regulars.id).answer =
        (.ok ⟨false, false⟩, [.all "ann"]) ∧
      (shop.computedValueUnder .unlimited "shop" "ann" "visits").answer =
        (.ok ⟨"visits", .number, .ofInt 1, false⟩,
          [⟨"ann", some "visit", some (Timeframe.window shop.now .allTime)⟩]) ∧
      ∃ w, (shop.sweep "shop" regulars.id afterFirst).answer = (.ok w, [.all "ann"]) ∧
        w.cancelled = true ∧ "ann" ∉ w.degraded ∧ "ann" ∉ w.failed ∧
        ∃ m, (shop.membershipUnder .unlimited "shop" "ann" regulars.id).answer =
            (.ok m, [.all "ann"]) ∧ ("ann" ∈ w.members ↔ m.matched = true) := by
  obtain ⟨hmembership, hvalue, hsweep⟩ := answers_unlimited shop "shop"
  refine ⟨hmembership "ann" regulars.id ⟨false, false⟩ _ rfl rfl,
    hvalue "ann" "visits" _ _ shop_computedValue rfl, ?_⟩
  have hanswer : (shop.sweep "shop" regulars.id afterFirst).answer =
      (.ok ⟨"shop", regulars.id, "regulars", 1, [], [], [], true⟩, [.all "ann"]) := rfl
  obtain ⟨segment, population, -, hpopulation, hexact⟩ := hsweep _ _ _ _ hanswer
  obtain rfl := Except.ok.inj hpopulation
  refine ⟨_, hanswer, rfl, List.not_mem_nil, List.not_mem_nil, ?_⟩
  refine hexact.answer ?_ ⟨"ann", none, .empty, []⟩ ?_ List.not_mem_nil List.not_mem_nil
  · intro p hp
    simp only [List.mem_cons, List.not_mem_nil, or_false] at hp
    rcases hp with rfl | rfl <;> rfl
  · exact Sweep.Cancellation.mem_visited.2 ⟨0, rfl, rfl⟩

/-- The regulars, as they are submitted. -/
def regularsSpec : Segment.Spec where
  name := "regulars"
  description := none
  filters := [⟨"event", some "visit", none, [], some ⟨"count", none, "at_least", 2, none⟩, none⟩]

/-- The segment of the regulars is created. -/
def regularsCreated : List (String × Registry.Operation) :=
  [("shop", .createSegment ⟨regulars.id, regulars.createdAt⟩ regularsSpec)]

/-- The visitor who came twice. -/
def bobsVisits : List (String × Store.Deposit) :=
  [("shop", .profile ⟨"bob", none, .empty, []⟩), ("shop", .event (visit "bob")),
    ("shop", .event (visit "bob"))]

/-- A sweep that is cancelled beforehand lists Bob neither as degraded nor as failed, and not as a
member, although he is one without limits. -/
theorem cancelled_sweep_skips :
    let s : Service := ⟨{}, .after regularsCreated, (Store.after bobsVisits).source, shop.now⟩
    ∃ w, (s.sweep "shop" regulars.id true).answer = (.ok w, []) ∧ w.cancelled = true ∧
      "bob" ∉ w.degraded ∧ "bob" ∉ w.failed ∧ "bob" ∉ w.members ∧
      (s.membershipUnder .unlimited "shop" "bob" regulars.id).answer =
        (.ok ⟨true, false⟩, [.all "bob"]) := by
  intro s
  have hsweep : (s.sweep "shop" regulars.id true).answer =
      (.ok ⟨"shop", regulars.id, "regulars", 0, [], [], [], true⟩, []) := by
    decide +kernel
  have hbob : (s.membershipUnder .unlimited "shop" "bob" regulars.id).answer =
      (.ok ⟨true, false⟩, [.all "bob"]) := by
    decide +kernel
  exact ⟨_, hsweep, rfl, List.not_mem_nil, List.not_mem_nil, List.not_mem_nil, hbob⟩

end Service

end Cohort
