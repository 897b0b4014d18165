import Cohort.Proofs.Report.Pages
import Cohort.Proofs.Report.Rows
import Cohort.Proofs.Service.Stored
import Cohort.Proofs.Store
set_option relaxedAutoImplicit false
set_option autoImplicit false

/-!
# Requests that fetch fewer events

A request about an aggregate, and a report whose columns all count the same events, fetch only the
events of a name and a window. As long as a scan has room for the whole history of a profile, that
does not show: the answer is the one that is made from all its events.

## Main definitions

* `Cohort.Service.whole` — a stored profile with its whole history, as an evaluation sees it.

## Main results

* `Cohort.Service.scopedQuery_suffices` — a narrowed query leaves out no event that counts.
* `Cohort.Service.row?_rowQuery` — a row does not change with what its report fetches.
* `Cohort.Service.report_whole` — a report is made as if it fetched all events.
-/

namespace Cohort.Service

variable {s : Service} {store : Store} {project : String}

/-- A stored profile with its whole history, as an evaluation sees it. -/
def whole (s : Service) (store : Store) (project : String) (p : Profile) : Subject :=
  s.subject (s.registry.snapshot project) p (store.history project p.id)

/-- A scan of the whole history has room if the history is no longer than a scan may be. -/
lemma whole_admits {p : Profile}
    (hlength : (store.history project p.id).length ≤ s.settings.scanLength) :
    (s.whole store project p).limits.Admit (s.whole store project p).events.length :=
  ScanLimits.admit_of_le hlength

/-- Whoever fetches all events of a profile sees the whole history. -/
lemma fetched_all (hfiled : store.Filed) (p : Profile) :
    s.fetched store project (.all p.id) p = s.whole store project p := by
  unfold fetched whole
  rw [hfiled.events_all]

/-- A query for what an aggregate may count leaves out no event that counts for an aggregate of the
same events. -/
theorem scopedQuery_suffices (hfiled : store.Filed) (p : Profile) {a b : Aggregate}
    (hsame : Report.sameEvents a b = true) :
    (s.whole store project p).Suffices (s.scopedQuery p.id b).accepts a := by
  intro e he hcounts
  have hprofile : e.profileId = p.id := hfiled.event_profileId he
  simp only [Report.sameEvents, Bool.and_eq_true, decide_eq_true_eq] at hsame
  obtain ⟨hname, htimeframe⟩ := hsame
  simp only [Scan.counts, Bool.and_eq_true] at hcounts
  obtain ⟨⟨hnamed, hinside⟩, -⟩ := hcounts
  rw [hname] at hnamed
  rw [htimeframe] at hinside
  simp only [EventQuery.accepts, scopedQuery, hprofile, hnamed, Option.all_some, Bool.and_eq_true,
    decide_true, true_and]
  exact hinside

/-- A row does not change with what its report fetches.

**Proof sketch.** If the report has a common scope, each of its columns finds all that it counts
among the fetched events; otherwise all events are fetched. -/
theorem row?_rowQuery (hfiled : store.Filed) (plan : Report.Plan) {p : Profile}
    (hlength : (store.history project p.id).length ≤ s.settings.scanLength) :
    plan.row? (s.fetched store project (s.rowQuery plan p.id) p) =
      plan.row? (s.whole store project p) := by
  unfold rowQuery
  cases hscope : plan.eventScope? with
  | none => exact congrArg plan.row? (fetched_all hfiled p)
  | some first =>
    have hkeeps : ∀ a, Report.sameEvents a first = true →
        (s.whole store project p).Suffices (s.scopedQuery p.id first).accepts a :=
      fun a hsame => scopedQuery_suffices hfiled p hsame
    have hrow := Report.Plan.row?_narrowed hscope (whole_admits hlength) hkeeps
    exact hrow

/-- The table of a report does not change with what it fetches. -/
lemma table_rowQuery (hfiled : store.Filed) (plan : Report.Plan)
    (hroom : ∀ p ∈ store.profiles project,
      (store.history project p.id).length ≤ s.settings.scanLength) :
    plan.table s.now ((store.profiles project).map fun p =>
        s.fetched store project (s.rowQuery plan p.id) p) =
      plan.table s.now ((store.profiles project).map (s.whole store project)) := by
  have hrows : ((store.profiles project).map fun p =>
        s.fetched store project (s.rowQuery plan p.id) p).filterMap plan.row? =
      ((store.profiles project).map (s.whole store project)).filterMap plan.row? := by
    rw [List.filterMap_map, List.filterMap_map]
    exact List.filterMap_congr fun p hp => row?_rowQuery hfiled plan (hroom p hp)
  unfold Report.Plan.table
  rw [hrows]

/-- The fetch of fewer events is invisible in reports. Over any store and any definitions, with room
for the whole history of each profile, a report that is accepted answers with the table that its
plan makes from all events; and each cell that shows an aggregate is the value of this aggregate
over the whole history of the profile, whatever the other columns, the order and the segment are.

**Proof sketch.** The rows that are made of the fetched events are those made of all events
(`table_rowQuery`). A cell of an aggregate is its value over the subject of the row, whose events
are the history of the profile. -/
theorem report_whole (settings : Settings) (registry : Registry)
    (deposits : List (String × Store.Deposit)) (now : Instant) (project : String)
    (spec : Report.Spec) (plan : Report.Plan)
    (hcompile : Report.compile settings.reporting (registry.snapshot project) spec = .ok plan)
    (hroom : ∀ p ∈ (Store.after deposits).profiles project,
      ((Store.after deposits).history project p.id).length ≤ settings.scanLength) :
    let store := Store.after deposits
    let s : Service := ⟨settings, registry, store.source, now⟩
    let table := plan.table now ((store.profiles project).map (s.whole store project))
    (s.report project spec false).answer =
        (.ok table, (store.profiles project).map fun p => s.rowQuery plan p.id) ∧
      ∀ row ∈ table.rows, ∀ (place : Nat) (c : Report.Column) (a : Aggregate),
        plan.columns[place]? = some c → c.source = .metric a →
          row.values[place]? =
            some (a.compute settings.limits now (store.history project row.profileId)).value := by
  intro store s table
  have hfiled : store.Filed := Store.filed_after deposits
  have hsource : s.source = store.source := rfl
  constructor
  · rw [(report_gives hsource hcompile).answer, table_rowQuery hfiled plan hroom]
  · intro row hrow place c a hc ha
    obtain ⟨subject, hsubject, hmade⟩ := plan.exists_row?_of_mem_rows _ _ hrow
    obtain ⟨p, hp, rfl⟩ := List.mem_map.1 hsubject
    rw [Report.Plan.row?_metric hmade hc ha, (Report.Plan.row?_eq_some hmade).1]
    rfl

/-! ### A report about visits

Ann came once. Bob came twice, and he bought something in between, which a report about visits does
not fetch. -/

/-- What is stored about the visitors of a shop. -/
def shopDeposits : List (String × Store.Deposit) :=
  [("shop", .profile ⟨"ann", none, .empty, []⟩), ("shop", .profile ⟨"bob", none, .empty, []⟩),
    ("shop", .event (visit "bob")), ("shop", .event { visit "bob" with name := "purchase" }),
    ("shop", .event (visit "ann")), ("shop", .event (visit "bob"))]

/-- The number of visits as a column shows it. -/
def visitCount : Aggregate := ⟨.count, .allTime, some "visit", none, .total, []⟩

/-- A report about the number of visits, as it is submitted. -/
def visitReport : Report.Spec where
  columns := [⟨"visits", none, .metric ⟨"count", .allTime, some "visit", none, none, []⟩, none⟩]
  sort := none
  page := none
  pageSize := none
  segmentId := none

/-- The report about the number of visits. -/
def visitPlan : Report.Plan where
  columns := [⟨"visits", "visits", .metric visitCount, .number, true⟩]
  sort := none
  page := 1
  pageSize := 50
  segment := none

/-- The report fetches the visits of each visitor only, and it counts them all. -/
theorem visitReport_whole :
    let s : Service := ⟨{}, shop.registry, (Store.after shopDeposits).source, shop.now⟩
    ∃ table, (s.report "shop" visitReport false).answer =
        (.ok table, [s.scopedQuery "ann" visitCount, s.scopedQuery "bob" visitCount]) ∧
      table.rows = [⟨"ann", [.ofInt 1], false⟩, ⟨"bob", [.ofInt 2], false⟩] := by
  intro s
  obtain ⟨hanswer, -⟩ := report_whole {} shop.registry shopDeposits shop.now "shop" visitReport
    visitPlan (by decide +kernel) (by decide +kernel)
  exact ⟨_, hanswer, by decide +kernel⟩

end Cohort.Service
