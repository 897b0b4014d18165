import Mathlib.Data.List.Forall2
import Cohort.Proofs.Result
import Cohort.Report.Basic
set_option relaxedAutoImplicit false
set_option autoImplicit false

/-!
# Accepted reports

A submitted report is accepted if each of its checks is passed, and then it means one plan. Which
page is wanted is no matter of the checks: the pages of a report differ in their number only.

## Main definitions

* `Cohort.Report.Accepts` — a submitted report passes all checks and means a plan.
* `Cohort.Report.Spec.onPage`, `Cohort.Report.Plan.onPage` — the same report on another page.

## Main results

* `Cohort.Report.compile_eq_ok` — the reports that are accepted, and their plans.
* `Cohort.Report.compile_onPage` — a report is accepted on every page or on none.
-/

namespace Cohort.Report

/-- No key is repeated if the keys differ from one another and from those that were seen before.

**Proof sketch.** Induction on the columns, for any keys that were seen: behind a column its key is
one of them. -/
lemma repeatedKey?_eq_none {seen : List String} {columns : List Column} :
    repeatedKey? seen columns = none ↔
      (columns.map Column.key).Nodup ∧ ∀ c ∈ columns, c.key ∉ seen := by
  induction columns generalizing seen with
  | nil => simp [repeatedKey?]
  | cons c cs ih =>
    unfold repeatedKey?
    split
    case isTrue hseen =>
      constructor
      · intro h
        cases h
      · rintro ⟨-, hnew⟩
        exact absurd hseen (hnew c List.mem_cons_self)
    case isFalse hseen =>
      rw [ih, List.map_cons, List.nodup_cons, List.forall_mem_cons]
      simp only [List.mem_cons, not_or, List.mem_map, not_exists, not_and]
      constructor
      · rintro ⟨hnodup, hnew⟩
        exact ⟨⟨fun d hd => (hnew d hd).1, hnodup⟩, hseen, fun d hd => (hnew d hd).2⟩
      · rintro ⟨⟨hother, hnodup⟩, -, hnew⟩
        exact ⟨hnodup, fun d hd => ⟨hother d hd, hnew d hd⟩⟩

/-- A submitted report passes all checks, and this is the plan that it means. -/
structure Accepts (paging : Paging) (snapshot : Snapshot) (spec : Spec) (plan : Plan) : Prop where
  /-- There is a column. -/
  columns_ne_nil : spec.columns ≠ []
  /-- Each column is accepted on its own. -/
  columns : List.Forall₂ (fun c column => Column.compile snapshot c = .ok column)
    spec.columns plan.columns
  /-- No two columns have the same key. -/
  keys : (plan.columns.map Column.key).Nodup
  /-- The column to sort by is one of the columns. -/
  sort : spec.sort.mapM (readSort plan.columns) = .ok plan.sort
  /-- The segment is one of the segments of the snapshot. -/
  segment : spec.segmentId.mapM (readSegment snapshot) = .ok plan.segment
  /-- Pages are counted from one. -/
  page : plan.page = max 1 (spec.page.getD 1)
  /-- A page has a size that the bounds allow. -/
  pageSize : plan.pageSize = paging.sizeOf spec.pageSize

variable {paging : Paging} {snapshot : Snapshot} {spec : Spec} {plan : Plan}

/-- The reports that are accepted, and the plans that they mean.

**Proof sketch.** Both directions go through the checks in the order in which they are made. -/
theorem compile_eq_ok :
    compile paging snapshot spec = .ok plan ↔ Accepts paging snapshot spec plan := by
  unfold compile
  simp only [Result.throw_bind, Result.guard_eq_ok, Result.bind_eq_ok, Result.mapM_eq_ok,
    List.isEmpty_iff]
  constructor
  · rintro ⟨hne, columns, hcolumns, h⟩
    split at h
    case h_1 => cases h
    case h_2 hkeys =>
      simp only [Result.bind_eq_ok, Result.pure_eq_ok] at h
      obtain ⟨sort, hsort, segment, hsegment, rfl⟩ := h
      have hnodup : repeatedKey? [] columns = none := Option.eq_none_iff_forall_ne_some.2 hkeys
      exact ⟨hne, hcolumns, (repeatedKey?_eq_none.1 hnodup).1, hsort, hsegment, rfl, rfl⟩
  · intro h
    have hkeys : repeatedKey? [] plan.columns = none :=
      repeatedKey?_eq_none.2 ⟨h.keys, fun _ _ => List.not_mem_nil⟩
    refine ⟨h.columns_ne_nil, plan.columns, h.columns, ?_⟩
    rw [hkeys, h.sort, h.segment, ← h.page, ← h.pageSize]
    rfl

namespace Accepts

/-- A report that is submitted without a sort is not sorted. -/
lemma sort_eq_none (h : Accepts paging snapshot spec plan) (hsort : spec.sort = none) :
    plan.sort = none := by
  have hread := h.sort
  rw [hsort] at hread
  exact (Except.ok.inj hread).symm

/-- A report that names a segment is restricted to it. -/
lemma segment_eq_some (h : Accepts paging snapshot spec plan) {id : Uuid} {segment : Segment}
    (hid : spec.segmentId = some id) (hsegment : snapshot.segments.get? id = some segment) :
    plan.segment = some segment := by
  have hread := h.segment
  rw [hid, Option.mapM_some, readSegment, hsegment] at hread
  exact (Except.ok.inj hread).symm

/-- A page has room for a row. -/
lemma pageSize_pos (h : Accepts paging snapshot spec plan) : 0 < plan.pageSize := by
  rw [h.pageSize]
  exact Nat.le_max_left 1 _

end Accepts

/-! ### Pages -/

/-- The same submitted report, with another page wanted. -/
def Spec.onPage (spec : Spec) (page : Nat) : Spec := { spec with page := some page }

/-- The same accepted report on another page. -/
def Plan.onPage (plan : Plan) (page : Nat) : Plan := { plan with page := page }

/-- A report is accepted on every page, and its plans for them differ in the page only. -/
theorem compile_onPage (h : compile paging snapshot spec = .ok plan) (page : Nat) :
    compile paging snapshot (spec.onPage page) = .ok (plan.onPage (max 1 page)) := by
  have hplan := compile_eq_ok.1 h
  exact compile_eq_ok.2 { hplan with page := rfl }

end Cohort.Report
