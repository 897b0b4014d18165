import Cohort.Proofs.Service.Isolation
import Cohort.Proofs.Service.Narrowing
set_option relaxedAutoImplicit false
set_option autoImplicit false

/-!
# The audience of a segment

Whether a profile is a member of a segment can be asked for the profile alone, a sweep tells it for
all profiles at once, and a report may be restricted to the members. All three decide it from the
whole history of the profile and for the same reasons, so they have the same audience.

## Main definitions

* `Cohort.Service.audience` — the stored profiles whose memberships are as asked for.
* `Cohort.Service.Covers` — a sweep that tells of each profile what a request about it tells.

## Main results

* `Cohort.Service.mem_audience_iff` — a profile is listed if the request about it says so.
* `Cohort.Service.sweep_audience`, `Cohort.Service.pages_audience` — what a sweep lists, and what
  the pages of a report list.
* `Cohort.Service.audience_agrees` — all three agree, over any definitions and any store.
-/

namespace Cohort

/-! ### Members in reports and sweeps -/

namespace Report.Plan

variable {p : Plan} {g : Segment}

/-- A report on a segment has a row for a subject if it is a member.

**Proof sketch.** A row is left out only by the segment (`row?_eq_none`), and a row has the
identifier of its subject. -/
lemma map_profileId_row? (hsegment : p.segment = some g) (s : Subject) :
    (p.row? s).map Row.profileId =
      if (g.membership s).matched then some s.profile.id else none := by
  cases hrow : p.row? s with
  | none =>
    obtain ⟨g', hg', hmatched⟩ := row?_eq_none.1 hrow
    obtain rfl : g = g' := Option.some.inj (hsegment.symm.trans hg')
    simp [hmatched]
  | some row =>
    have hmatched : (g.membership s).matched = true := by
      by_contra hnot
      have hnone : p.row? s = none := row?_eq_none.2 ⟨g, hsegment, by simpa using hnot⟩
      rw [hrow] at hnone
      cases hnone
    simp [hmatched, (row?_eq_some hrow).1]

/-- A report on a segment that is not sorted lists the members in the order of the subjects. -/
lemma map_profileId_allRows (hsort : p.sort = none) (hsegment : p.segment = some g)
    (subjects : List Subject) :
    (p.allRows subjects).map Row.profileId =
      (subjects.filter fun s => (g.membership s).matched).map fun s => s.profile.id := by
  have hrows : p.allRows subjects = subjects.filterMap p.row? := by
    unfold allRows order
    rw [hsort]
  calc (p.allRows subjects).map Row.profileId
      = subjects.filterMap fun s => (p.row? s).map Row.profileId := by
        rw [hrows, List.map_filterMap]
    _ = subjects.filterMap fun s =>
          if (g.membership s).matched then some s.profile.id else none :=
        List.filterMap_congr fun s _ => map_profileId_row? hsegment s
    _ = (subjects.filter fun s => (g.membership s).matched).map fun s => s.profile.id := by
        rw [← List.filterMap_eq_map, List.filterMap_filter]
        rfl

/-- A report on a segment may read any event. -/
lemma eventScope?_eq_none (hsegment : p.segment = some g) : p.eventScope? = none := by
  unfold eventScope?
  rw [hsegment]
  rfl

end Report.Plan

namespace Sweep

/-- A sweep that decides every profile lists the members and the profiles that are degraded. -/
lemma ofFindings_decided (decided : Profile → Membership) (profiles : List Profile)
    (project : String) (segment : Segment) :
    ofFindings project segment false (fun p => some (decided p)) profiles =
      { projectId := project
        segmentId := segment.id
        segmentName := segment.name
        evaluated := profiles.length
        members := (profiles.filter fun p => (decided p).matched).map Profile.id
        degraded := (profiles.filter fun p => (decided p).degraded).map Profile.id
        failed := []
        cancelled := false } := by
  unfold ofFindings
  simp

end Sweep

namespace Service

variable {s : Service} {store : Store} {project : String} {segmentId : Uuid} {segment : Segment}

/-! ### Who is listed -/

/-- The stored profiles whose memberships are as asked for, in the order of the store. -/
def audience (s : Service) (store : Store) (project : String) (segment : Segment)
    (asked : Membership → Bool) : List String :=
  ((store.profiles project).filter fun p =>
    asked (segment.membership (s.whole store project p))).map Profile.id

/-- The events that a report on a segment fetches are all. -/
lemma rowQuery_of_segment {plan : Report.Plan} (hsegment : plan.segment = some segment)
    (id : String) : s.rowQuery plan id = .all id := by
  unfold rowQuery
  rw [Report.Plan.eventScope?_eq_none hsegment]

/-- Profiles are listed in ascending order, each once. -/
lemma pairwise_audience (hfiled : store.Filed) (asked : Membership → Bool) :
    (s.audience store project segment asked).Pairwise (· < ·) := by
  unfold audience
  rw [List.pairwise_map]
  exact hfiled.pairwise_profiles.filter _

section Requests

variable (hsource : s.source = store.source) (hfiled : store.Filed)

include hsource hfiled

/-- The pages of a report on a segment that is not sorted list the members, whichever page the
report was asked for.

**Proof sketch.** A plan on a segment fetches all events of each profile, so every page is cut from
the same rows. Without an order these are the members of the segment, in the order of the
profiles. -/
theorem pages_audience {spec : Report.Spec} {plan : Report.Plan}
    (hcompile : Report.compile s.settings.reporting (s.registry.snapshot project) spec = .ok plan)
    (hsort : plan.sort = none) (hsegment : plan.segment = some segment) :
    ∃ tables : Nat → Report.Table,
      (∀ page, (s.report project (spec.onPage page) false).answer =
        (.ok (tables page), (store.profiles project).map fun p => .all p.id)) ∧
      ∀ page, (List.range (tables page).pagination.totalPages).flatMap
          (fun k => (tables (k + 1)).rows.map Report.Row.profileId) =
        s.audience store project segment Membership.matched := by
  let subjects := (store.profiles project).map (s.whole store project)
  refine ⟨fun page => (plan.onPage (max 1 page)).table s.now subjects, ?_, ?_⟩
  · intro page
    have hanswer := (report_gives hsource (Report.compile_onPage hcompile page)).answer
    have hquery : ∀ id, s.rowQuery (plan.onPage (max 1 page)) id = .all id :=
      rowQuery_of_segment hsegment
    simp only [hquery, fetched_all hfiled] at hanswer
    exact hanswer
  · intro page
    have hsize : 0 < plan.pageSize := (Report.compile_eq_ok.1 hcompile).pageSize_pos
    have hrows := plan.flatMap_rows_onPage s.now subjects hsize (max 1 page)
    have hpage : ∀ k, max 1 (k + 1) = k + 1 := fun k => Nat.max_eq_right (Nat.le_add_left 1 k)
    simp only [hpage]
    rw [← List.map_flatMap, hrows, Report.Plan.map_profileId_allRows hsort hsegment]
    unfold audience
    rw [List.filter_map, List.map_map]
    rfl

variable (hsegment : s.registry.segment project segmentId = .ok segment)

include hsegment

/-- The membership of a stored profile is decided from its whole history. -/
lemma membership_answer {p : Profile} (hp : p ∈ store.profiles project) :
    (s.membership project p.id segmentId).answer =
      (.ok (segment.membership (s.whole store project p)), [.all p.id]) := by
  have hstored : store.profile? project p.id = some p := hfiled.mem_profiles.1 hp
  rw [(membership_gives hsource hsegment hstored).answer, fetched_all hfiled]

/-- A profile is listed if the request about it is answered as asked for.

**Proof sketch.** A profile that is listed is stored and answered. One that is answered is stored,
since the source does not know others, and under the identifier that it was asked for. -/
theorem mem_audience_iff (asked : Membership → Bool) (id : String) :
    id ∈ s.audience store project segment asked ↔
      ∃ m queries, (s.membership project id segmentId).answer = (.ok m, queries) ∧
        asked m = true := by
  unfold audience
  rw [List.mem_map]
  constructor
  · rintro ⟨p, hp, rfl⟩
    rw [List.mem_filter] at hp
    exact ⟨_, _, membership_answer hsource hfiled hsegment hp.1, hp.2⟩
  · rintro ⟨m, queries, hanswer, hasked⟩
    cases hp : store.profile? project id with
    | none => exact absurd hanswer (membership_ne_ok hsource hp m queries)
    | some p =>
      obtain rfl : p.id = id := hfiled.profile_id hp
      have hmem : p ∈ store.profiles project := hfiled.mem_profiles.2 hp
      rw [membership_answer hsource hfiled hsegment hmem] at hanswer
      obtain rfl := Except.ok.inj (congrArg Prod.fst hanswer)
      exact ⟨p, List.mem_filter.2 ⟨hmem, hasked⟩, rfl⟩

/-- A sweep lists the members, and the profiles whose scans stopped early. -/
theorem sweep_audience :
    (s.sweep project segmentId false).answer =
      (.ok
        { projectId := project
          segmentId := segment.id
          segmentName := segment.name
          evaluated := (store.profiles project).length
          members := s.audience store project segment Membership.matched
          degraded := s.audience store project segment Membership.degraded
          failed := []
          cancelled := false },
        (store.profiles project).map fun p => .all p.id) := by
  rw [(sweep_stored hsource hsegment).answer, Sweep.ofFindings_decided]
  simp only [fetched_all hfiled]
  rfl

end Requests

/-! ### Agreement -/

/-- A sweep covers a project if it decides each of its profiles and lists just those of which
requests about one profile tell the same, in ascending order and each once. -/
structure Covers (s : Service) (store : Store) (project : String) (segmentId : Uuid)
    (w : Sweep) : Prop where
  /-- Requests about one profile are answered for those that are stored. -/
  answered : ∀ p ∈ store.profiles project, ∃ m,
    (s.membership project p.id segmentId).answer = (.ok m, [.all p.id])
  /-- The sweep decides all of them. -/
  evaluated : w.evaluated = (store.profiles project).length
  /-- It fails for none. -/
  failed : w.failed = []
  /-- It goes through to the end. -/
  cancelled : w.cancelled = false
  /-- The members are the profiles that are members by themselves. -/
  members : ∀ id, id ∈ w.members ↔ ∃ m queries,
    (s.membership project id segmentId).answer = (.ok m, queries) ∧ m.matched = true
  /-- The degraded profiles are those that are degraded by themselves. -/
  degraded : ∀ id, id ∈ w.degraded ↔ ∃ m queries,
    (s.membership project id segmentId).answer = (.ok m, queries) ∧ m.degraded = true
  /-- Members are listed in ascending order. -/
  members_ascending : w.members.Pairwise (· < ·)
  /-- Degraded profiles are listed in ascending order. -/
  degraded_ascending : w.degraded.Pairwise (· < ·)

/-- Requests about one profile, sweeps and reports have the same audience of a segment, under any
definitions and limits and over any store: the sweep covers the project, and the pages of a report
on the segment that is not sorted list the members that the sweep lists, in the same order.

**Proof sketch.** The sweep lists the audience of the segment (`sweep_audience`), and the parts say
that this is what requests answer (`mem_audience_iff`) and what the pages list
(`pages_audience`). -/
theorem audience_agrees (settings : Settings) (registry : Registry)
    (deposits : List (String × Store.Deposit)) (now : Instant) (project : String)
    (segmentId : Uuid) (segment : Segment)
    (hsegment : registry.segment project segmentId = .ok segment) :
    let store := Store.after deposits
    let s : Service := ⟨settings, registry, store.source, now⟩
    ∃ w, (s.sweep project segmentId false).answer =
        (.ok w, (store.profiles project).map fun p => .all p.id) ∧
      s.Covers store project segmentId w ∧
      ∀ spec plan, spec.sort = none → spec.segmentId = some segmentId →
        Report.compile settings.reporting (registry.snapshot project) spec = .ok plan →
          ∃ tables : Nat → Report.Table,
            (∀ page, (s.report project (spec.onPage page) false).answer =
              (.ok (tables page), (store.profiles project).map fun p => .all p.id)) ∧
            ∀ page, (List.range (tables page).pagination.totalPages).flatMap
              (fun k => (tables (k + 1)).rows.map Report.Row.profileId) = w.members := by
  intro store s
  have hfiled : store.Filed := Store.filed_after deposits
  have hsource : s.source = store.source := rfl
  refine ⟨_, sweep_audience hsource hfiled hsegment, ?_, ?_⟩
  · exact
      { answered := fun p hp => ⟨_, membership_answer hsource hfiled hsegment hp⟩
        evaluated := rfl
        failed := rfl
        cancelled := rfl
        members := mem_audience_iff hsource hfiled hsegment Membership.matched
        degraded := mem_audience_iff hsource hfiled hsegment Membership.degraded
        members_ascending := pairwise_audience hfiled Membership.matched
        degraded_ascending := pairwise_audience hfiled Membership.degraded }
  · intro spec plan hsort hid hcompile
    have hplan := Report.compile_eq_ok.1 hcompile
    -- the plan has the segment under its identifier, which is the one that was swept
    have hfound : (registry.snapshot project).segments.get? segmentId = some segment :=
      Registry.found_eq_ok.1 hsegment
    exact pages_audience hsource hfiled hcompile (hplan.sort_eq_none hsort)
      (hplan.segment_eq_some hid hfound)

/-! ### The regulars

Ann came once and Bob came twice, so Bob is a regular. -/

/-- A report on the regulars, as it is submitted. -/
def regularsReport : Report.Spec := { visitReport with segmentId := some regulars.id }

/-- The report on the regulars. -/
def regularsPlan : Report.Plan := { visitPlan with segment := some regulars }

/-- A sweep finds Bob, and the report on the regulars lists him. -/
theorem regulars_audience :
    let s : Service := ⟨{}, shop.registry, (Store.after shopDeposits).source, shop.now⟩
    ∃ w, (s.sweep "shop" regulars.id false).answer = (.ok w, [.all "ann", .all "bob"]) ∧
      w.members = ["bob"] ∧ w.degraded = [] ∧
      ∃ tables : Nat → Report.Table,
        (∀ page, (s.report "shop" (regularsReport.onPage page) false).answer =
          (.ok (tables page), [.all "ann", .all "bob"])) ∧
        ∀ page, (List.range (tables page).pagination.totalPages).flatMap
          (fun k => (tables (k + 1)).rows.map Report.Row.profileId) = ["bob"] := by
  intro s
  obtain ⟨w, hsweep, -, hreport⟩ := audience_agrees {} shop.registry shopDeposits shop.now "shop"
    regulars.id regulars (by decide +kernel)
  have hbob : (s.sweep "shop" regulars.id false).answer =
      (.ok ⟨"shop", regulars.id, "regulars", 2, ["bob"], [], [], false⟩,
        [.all "ann", .all "bob"]) := by
    decide +kernel
  obtain rfl := Except.ok.inj (congrArg Prod.fst (hsweep.symm.trans hbob))
  exact ⟨_, hbob, rfl, rfl, hreport regularsReport regularsPlan rfl rfl (by decide +kernel)⟩

end Service

end Cohort
