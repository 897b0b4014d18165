import Cohort.Proofs.Service.Limits
import Cohort.Service.Report
set_option relaxedAutoImplicit false
set_option autoImplicit false

/-!
# Requests to a store

Every read from a store succeeds. So a request about profiles that are stored is answered, and this
file says with what: the evaluation of the subjects that are made of what the queries give.

## Main definitions

* `Cohort.Service.fetched` — a stored profile with the events that a query gives.

## Main results

* `Cohort.Service.membership_gives`, `Cohort.Service.computedValue_gives`,
  `Cohort.Service.computedValues_gives` — answers about one profile.
* `Cohort.Service.sweep_stored`, `Cohort.Service.report_gives` — answers about all profiles.
-/

namespace Cohort.Service

/-- A stored profile with the events that a query gives, as an evaluation sees it. -/
def fetched (s : Service) (store : Store) (project : String) (q : EventQuery) (p : Profile) :
    Subject :=
  s.subject (s.registry.snapshot project) p (store.events project q)

variable {s : Service} {store : Store} (hsource : s.source = store.source) {project : String}

/-! ### Reads -/

include hsource

/-- A store that answers gives the events of a query, after this query. -/
lemma events_gives (q : EventQuery) : (s.events project q).Gives (store.events project q) [q] := by
  unfold events
  rw [hsource]
  exact fun queries => rfl

/-- A store that answers gives a profile that there is, without a query. -/
lemma profile_gives {id : String} {p : Profile} (hp : store.profile? project id = some p) :
    (s.profile project id).Gives p [] := by
  unfold profile
  rw [hsource]
  exact Request.gives_of_bind (congrArg Except.ok hp) (Request.gives_pure p)

/-- A query is loaded for a profile that is stored. -/
lemma load_gives {q : EventQuery} {p : Profile} (hp : store.profile? project q.profileId = some p) :
    (s.load project (s.registry.snapshot project) q).Gives (s.fetched store project q p) [q] := by
  unfold load
  exact (profile_gives hsource hp).bind (events_gives hsource q).map

/-! ### Answers about one profile -/

/-- The membership of a stored profile is decided from the answer to a query for all its events. -/
theorem membership_gives {id : String} {p : Profile} {segmentId : Uuid} {segment : Segment}
    (hsegment : s.registry.segment project segmentId = .ok segment)
    (hp : store.profile? project id = some p) :
    (s.membership project id segmentId).Gives
      (segment.membership (s.fetched store project (.all id) p)) [.all id] := by
  unfold membership
  exact Request.gives_of_bind hsegment (load_gives hsource hp).map

/-- Nothing is answered about a profile that is not stored. -/
lemma membership_ne_ok {id : String} {segmentId : Uuid} (hp : store.profile? project id = none)
    (m : Membership) (queries : List EventQuery) :
    (s.membership project id segmentId).answer ≠ (.ok m, queries) := by
  unfold membership load profile
  rw [hsource]
  unfold Request.answer
  rw [Request.run_bind]
  cases s.registry.segment project segmentId with
  | error e =>
    intro h
    cases h
  | ok segment =>
    simp only [Store.source, EventQuery.all, hp]
    intro h
    cases h

/-- A computed field of a stored profile is worked out from the answer to the query of the field.

**Proof sketch.** The query of a field is about the profile that was asked for, which is stored. -/
theorem computedValue_gives {id field : String} {p : Profile} {v : ComputedValue}
    (hp : store.profile? project id = some p)
    (hv : ((s.fetched store project (s.fieldQuery (s.registry.snapshot project) id field)
      p).computedValue field .none).1 = .ok v) :
    (s.computedValue project id field).Gives v
      [s.fieldQuery (s.registry.snapshot project) id field] := by
  have hid : (s.fieldQuery (s.registry.snapshot project) id field).profileId = id := by
    unfold fieldQuery
    split <;> rfl
  have hload : (s.load project (s.registry.snapshot project)
      (s.fieldQuery (s.registry.snapshot project) id field)).Gives _ _ :=
    load_gives hsource (by rw [hid]; exact hp)
  exact hload.bind (f := fun subject => .of (subject.computedValue field .none).1)
    (Request.gives_of hv)

/-- All computed fields of a stored profile are worked out from the answer to a query for all its
events. -/
theorem computedValues_gives {id : String} {p : Profile}
    (hp : store.profile? project id = some p) :
    (s.computedValues project id).Gives
      ((s.fetched store project (.all id) p).computedValues .none).1 [.all id] := by
  unfold computedValues
  exact (load_gives hsource hp).map

/-! ### Answers about all profiles -/

/-- A sweep finds out the membership of each stored profile. -/
lemma finding_stored (segment : Segment) (p : Profile) :
    s.finding project segment p =
      some (segment.membership (s.fetched store project (.all p.id) p)) := by
  unfold finding
  rw [hsource]
  rfl

/-- A sweep that is not cancelled asks for all events of each profile and lists the memberships. -/
theorem sweep_stored {segmentId : Uuid} {segment : Segment}
    (hsegment : s.registry.segment project segmentId = .ok segment) :
    (s.sweep project segmentId false).Gives
      (.ofFindings project segment false
        (fun p => some (segment.membership (s.fetched store project (.all p.id) p)))
        (store.profiles project))
      ((store.profiles project).map fun p => .all p.id) := by
  have hprofiles : s.source.profiles project = .ok (store.profiles project) := by
    rw [hsource]
    rfl
  have hsweep := sweep_gives (c := false) hsegment hprofiles
  rwa [Sweep.Cancellation.visited_of_atEnd rfl, funext (finding_stored hsource segment)] at hsweep

/-- A profile as a report sees it. -/
lemma reportSubject_gives (plan : Report.Plan) (p : Profile) :
    (s.reportSubject project (s.registry.snapshot project) plan false p).Gives
      (s.fetched store project (s.rowQuery plan p.id) p) [s.rowQuery plan p.id] := by
  unfold reportSubject
  exact (events_gives hsource _).map

/-- A report that is accepted asks for the events of each profile that it may count and makes its
table of them. -/
theorem report_gives {spec : Report.Spec} {plan : Report.Plan}
    (hcompile : Report.compile s.settings.reporting (s.registry.snapshot project) spec = .ok plan) :
    (s.report project spec false).Gives
      (plan.table s.now ((store.profiles project).map fun p =>
        s.fetched store project (s.rowQuery plan p.id) p))
      ((store.profiles project).map fun p => s.rowQuery plan p.id) := by
  unfold report
  refine Request.gives_of_bind hcompile ?_
  rw [hsource]
  refine Request.gives_of_bind rfl ?_
  rw [List.map_eq_flatMap (f := fun p : Profile => s.rowQuery plan p.id)]
  exact (Request.Gives.mapM fun p _ => reportSubject_gives hsource plan p).map

end Cohort.Service
