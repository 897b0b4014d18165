import Mathlib.Tactic.Lemma
import Cohort.Proofs.Subject.Limits
import Cohort.Report.Table
set_option relaxedAutoImplicit false
set_option autoImplicit false

/-!
# Reports within limits

A table is marked as degraded if one of its rows is. A row that is not marked is exact; but a
profile that a segment leaves out has no row, so it leaves no mark either, even if it was left out
because a scan stopped early. That is the one way in which a table that is not marked can differ
from the table without limits.

## Main definitions

* `Cohort.Report.Plan.Overlooks` — a member of the segment that is left out because a scan stopped
  early.

## Main results

* `Cohort.Report.Plan.row?_unlimited` — a row that is not marked as degraded is exact.
* `Cohort.Report.Plan.table_unlimited_iff` — a table that is not marked as degraded is exact if and
  only if nobody is overlooked.
-/

namespace Cohort.Report

/-- If one way to make rows makes at least those of another and not more of them, then both make
rows for the same elements.

**Proof sketch.** Induction on the elements. The first element makes no more rows one way than the
other, and neither do the rest; so if the sums are the same, both parts are. -/
lemma isSome_of_length_filterMap_eq {α β : Type} {f g : α → Option β} {as : List α}
    (hmono : ∀ a ∈ as, (f a).isSome → (g a).isSome)
    (hlength : (as.filterMap f).length = (as.filterMap g).length) :
    ∀ a ∈ as, (g a).isSome → (f a).isSome := by
  rw [List.length_filterMap_eq_countP, List.length_filterMap_eq_countP] at hlength
  induction as with
  | nil => simp
  | cons b as ih =>
    have hle : as.countP (fun a => (f a).isSome) ≤ as.countP (fun a => (g a).isSome) :=
      List.countP_mono_left fun a ha => hmono a (List.mem_cons_of_mem _ ha)
    have hrest : ∀ a ∈ as, (f a).isSome → (g a).isSome := fun a ha =>
      hmono a (List.mem_cons_of_mem _ ha)
    have hb : (f b).isSome = (g b).isSome ∧
        as.countP (fun a => (f a).isSome) = as.countP (fun a => (g a).isSome) := by
      rw [List.countP_cons, List.countP_cons] at hlength
      cases hf : (f b).isSome with
      | true =>
        have hg := hmono b List.mem_cons_self hf
        rw [hf, hg] at hlength
        exact ⟨hg.symm, by omega⟩
      | false =>
        cases hg : (g b).isSome with
        | true =>
          rw [hf, hg, if_neg Bool.false_ne_true, if_pos rfl] at hlength
          omega
        | false =>
          rw [hf, hg] at hlength
          exact ⟨rfl, by omega⟩
    intro a ha hsome
    rcases List.mem_cons.1 ha with rfl | ha
    · rw [hb.1]
      exact hsome
    · exact ih hrest hb.2 a ha hsome

/-! ### Rows -/

/-- A value for a column is found exactly. -/
lemma Source.valueOf_exact (source : Source) (s : Subject) :
    (source.valueOf s).Exact (source.valueOf (s.under .unlimited)) := by
  cases source with
  | property name => exact s.valueOf_exact name
  | metric a => exact s.aggregateValue_exact a

namespace Plan

variable {p : Plan} {s : Subject}

/-- Whether a subject belongs into a report is decided exactly. -/
lemma shows_exact (p : Plan) (s : Subject) : (p.shows s).Exact (p.shows (s.under .unlimited)) := by
  unfold shows
  cases p.segment with
  | none => exact Lookup.Exact.pure true
  | some g => exact (g.membershipIn_exact s).bind fun m => Lookup.Exact.pure m.matched

/-- The row of a subject is made exactly. -/
lemma rowIn?_exact (p : Plan) (s : Subject) :
    (p.rowIn? s).Exact (p.rowIn? (s.under .unlimited)) := by
  unfold rowIn?
  refine (p.shows_exact s).bind fun shown => ?_
  cases shown with
  | false => exact Lookup.Exact.pure none
  | true =>
    refine (Lookup.Exact.mapM (fun c => c.source.valueOf_exact s) p.columns).bind fun values => ?_
    exact Lookup.Exact.get.bind fun found => Lookup.Exact.pure _

/-- A subject that does not belong into a report has no row. -/
lemma rowIn?_of_shows_false {found : Findings} (h : (p.shows s found).1 = false) :
    p.rowIn? s found = (none, (p.shows s found).2) := by
  change (if (p.shows s found).1 = true then _ else pure none : Lookup _) (p.shows s found).2 = _
  rw [h]
  rfl

/-- The row of a subject is made after it was decided that the subject belongs into the report. -/
lemma rowIn?_of_shows_true {found : Findings} (h : (p.shows s found).1 = true) :
    p.rowIn? s found =
      (some ⟨s.profile.id, (p.columns.mapM (·.source.valueOf s) (p.shows s found).2).1,
          (p.columns.mapM (·.source.valueOf s) (p.shows s found).2).2.degraded⟩,
        (p.columns.mapM (·.source.valueOf s) (p.shows s found).2).2) := by
  change (if (p.shows s found).1 = true then _ else pure none : Lookup _) (p.shows s found).2 = _
  rw [h]
  rfl

/-- A row is marked as degraded if a scan stopped early until it was made. -/
lemma rowIn?_degraded {found : Findings} {row : Row} (h : (p.rowIn? s found).1 = some row) :
    row.degraded = (p.rowIn? s found).2.degraded := by
  cases hshows : (p.shows s found).1 with
  | false =>
    rw [rowIn?_of_shows_false hshows] at h
    cases h
  | true =>
    rw [rowIn?_of_shows_true hshows] at h ⊢
    cases h
    rfl

/-- A row that is not marked as degraded is the row without limits. -/
theorem row?_unlimited {row : Row} (h : p.row? s = some row) (hrow : row.degraded = false) :
    p.row? (s.under .unlimited) = some row := by
  have hnote : (p.rowIn? s .none).2.degraded = false := by
    rw [← rowIn?_degraded h]
    exact hrow
  unfold row? at h ⊢
  rw [← (p.rowIn?_exact s).agree .none hnote]
  exact h

/-- A subject has a row unless it is no member of the segment.

**Proof sketch.** A row is shown unless a segment says no, and whether it is shown decides whether
there is one. -/
lemma row?_eq_none :
    p.row? s = none ↔ ∃ g, p.segment = some g ∧ (g.membership s).matched = false := by
  have hrow : p.row? s = none ↔ (p.shows s .none).1 = false := by
    unfold row?
    cases hshows : (p.shows s .none).1 with
    | false => simp [rowIn?_of_shows_false hshows]
    | true => simp [rowIn?_of_shows_true hshows]
  rw [hrow]
  unfold shows
  cases p.segment with
  | none =>
    constructor
    · intro h
      cases h
    · rintro ⟨g, hg, -⟩
      cases hg
  | some g =>
    constructor
    · intro h
      exact ⟨g, rfl, h⟩
    · rintro ⟨g', hg, h⟩
      cases hg
      exact h

/-! ### Tables -/

/-- A report overlooks a subject if a scan of its events stopped early, it was therefore not found
in the segment, and without limits it is a member. -/
def Overlooks (p : Plan) (s : Subject) : Prop :=
  ∃ g, p.segment = some g ∧ g.membership s = ⟨false, true⟩ ∧
    (g.membership (s.under .unlimited)).matched = true

/-- A subject that is not overlooked has no row only if it has none without limits. -/
lemma row?_unlimited_of_eq_none (h : p.row? s = none) (hs : ¬ p.Overlooks s) :
    p.row? (s.under .unlimited) = none := by
  obtain ⟨g, hg, hmatched⟩ := row?_eq_none.1 h
  refine row?_eq_none.2 ⟨g, hg, ?_⟩
  cases hdegraded : (g.membership s).degraded with
  | false =>
    rw [Segment.membership_unlimited hdegraded]
    exact hmatched
  | true =>
    have hmembership : g.membership s = ⟨false, true⟩ := by
      rw [← hmatched, ← hdegraded]
    cases hunlimited : (g.membership (s.under .unlimited)).matched with
    | false => rfl
    | true => exact absurd ⟨g, hg, hmembership, hunlimited⟩ hs

/-- A subject that is overlooked has a row without limits only. -/
lemma Overlooks.row? (h : p.Overlooks s) :
    p.row? s = none ∧ (p.row? (s.under .unlimited)).isSome := by
  obtain ⟨g, hg, hmembership, hunlimited⟩ := h
  refine ⟨row?_eq_none.2 ⟨g, hg, by rw [hmembership]⟩, ?_⟩
  rw [Option.isSome_iff_ne_none]
  intro hnone
  obtain ⟨g', hg', hmatched⟩ := row?_eq_none.1 hnone
  obtain rfl := Option.some.inj (hg.symm.trans hg')
  rw [hunlimited] at hmatched
  cases hmatched

/-- Sorting keeps the rows. -/
lemma order_perm (p : Plan) (rows : List Row) : (p.order rows).Perm rows := by
  unfold order
  cases p.sort with
  | none => exact .refl rows
  | some sort => exact List.mergeSort_perm rows _

/-- In a table that is not marked as degraded no row is. -/
lemma degraded_eq_false {now : Instant} {subjects : List Subject}
    (h : (p.table now subjects).degraded = false) (hs : s ∈ subjects) {row : Row}
    (hrow : p.row? s = some row) : row.degraded = false := by
  have hmem : row ∈ p.order (subjects.filterMap p.row?) :=
    (p.order_perm _).mem_iff.2 (List.mem_filterMap.2 ⟨s, hs, hrow⟩)
  have hany : (p.order (subjects.filterMap p.row?)).any Row.degraded = false := h
  cases hdegraded : row.degraded with
  | false => rfl
  | true => exact absurd (List.any_eq_true.2 ⟨row, hmem, hdegraded⟩) (by rw [hany]; decide)

/-- A table that is not marked as degraded has the rows and pages that it has without limits if and
only if nobody is overlooked.

**Proof sketch.** Rows that are not marked are exact, so the tables can only differ by rows that one
of them lacks. If nobody is overlooked there are none. Otherwise the table without limits has more
rows, and its pages count all of them. -/
theorem table_unlimited_iff {now : Instant} {subjects : List Subject}
    (h : (p.table now subjects).degraded = false) :
    ((p.table now subjects).rows = (p.table now (subjects.map (·.under .unlimited))).rows ∧
      (p.table now subjects).pagination =
        (p.table now (subjects.map (·.under .unlimited))).pagination) ↔
      ∀ s ∈ subjects, ¬ p.Overlooks s := by
  have hrows : ∀ s ∈ subjects, ∀ row, p.row? s = some row →
      p.row? (s.under .unlimited) = some row := fun s hs row hrow =>
    row?_unlimited hrow (degraded_eq_false h hs hrow)
  constructor
  · rintro ⟨-, hpages⟩ s hs hoverlooked
    have htotal : (subjects.filterMap p.row?).length =
        (subjects.filterMap fun s => p.row? (s.under .unlimited)).length := by
      have := congrArg Pagination.totalRows hpages
      change (p.order _).length = (p.order _).length at this
      rw [(p.order_perm _).length_eq, (p.order_perm _).length_eq, List.filterMap_map] at this
      exact this
    -- no row is lost without limits, so equally many rows are the same ones
    have hmono : ∀ s ∈ subjects, (p.row? s).isSome → (p.row? (s.under .unlimited)).isSome := by
      intro s hs hsome
      obtain ⟨row, hrow⟩ := Option.isSome_iff_exists.1 hsome
      rw [hrows s hs row hrow]
      rfl
    obtain ⟨hnone, hsome⟩ := hoverlooked.row?
    have hlimited := isSome_of_length_filterMap_eq hmono htotal s hs hsome
    rw [hnone] at hlimited
    cases hlimited
  · intro hnobody
    have heq : subjects.filterMap p.row? =
        (subjects.map (·.under .unlimited)).filterMap p.row? := by
      rw [List.filterMap_map]
      refine List.filterMap_congr fun s hs => ?_
      cases hrow : p.row? s with
      | none => exact (row?_unlimited_of_eq_none hrow (hnobody s hs)).symm
      | some row => exact (hrows s hs row hrow).symm
    unfold table
    rw [heq]
    exact ⟨rfl, rfl⟩

/-! ### A report about buyers -/

/-- The beginning of 1970. -/
def epoch : Instant := ⟨0, 0, Instant.zero_range, Instant.zero_lt_nanos⟩

/-- Whoever bought something. -/
def buyers : Segment :=
  ⟨⟨1, Uuid.one_lt⟩, "buyers", none, [.event "purchase" [] none .allTime], epoch, epoch⟩

/-- How often the buyers bought something. -/
def purchases : Plan where
  columns :=
    [⟨"purchases", "purchases", .metric ⟨.count, .allTime, some "purchase", none, .total, []⟩,
      .number, true⟩]
  sort := none
  page := 1
  pageSize := 50
  segment := some buyers

/-- Somebody who did some things, of which scans look at the first. -/
def somebody (profileId : String) (names : List String) : Subject where
  snapshot := .empty "shop"
  profile := ⟨profileId, none, .empty, []⟩
  events := names.map fun name => ⟨profileId, name, .empty, epoch⟩
  limits := ⟨some 1, false⟩
  now := ⟨1, 0, by decide, Instant.zero_lt_nanos⟩

/-- Nobody is overlooked if everybody does one thing only. -/
theorem purchases_unlimited :
    (purchases.table epoch [somebody "ann" ["purchase"], somebody "bob" ["login"]]).rows =
        (purchases.table epoch ([somebody "ann" ["purchase"], somebody "bob" ["login"]].map
          (·.under .unlimited))).rows ∧
      (purchases.table epoch [somebody "ann" ["purchase"], somebody "bob" ["login"]]).pagination =
        (purchases.table epoch ([somebody "ann" ["purchase"], somebody "bob" ["login"]].map
          (·.under .unlimited))).pagination := by
  refine (table_unlimited_iff (by decide)).2 ?_
  rintro s hs ⟨g, hg, hmembership, -⟩
  obtain rfl := Option.some.inj hg
  simp only [List.mem_cons, List.not_mem_nil, or_false] at hs
  rcases hs with rfl | rfl
  · exact absurd hmembership (by decide)
  · exact absurd hmembership (by decide)

/-- Somebody who bought something after another event is overlooked, and the table does not say
so. -/
theorem purchases_overlook :
    (purchases.table epoch [somebody "dan" ["login", "purchase"]]).degraded = false ∧
      (purchases.table epoch [somebody "dan" ["login", "purchase"]]).pagination ≠
        (purchases.table epoch
          ([somebody "dan" ["login", "purchase"]].map (·.under .unlimited))).pagination := by
  decide

end Plan

end Cohort.Report
