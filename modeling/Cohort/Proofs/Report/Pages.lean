import Cohort.Proofs.Report.Limits
import Cohort.Proofs.Report.Plan
set_option relaxedAutoImplicit false
set_option autoImplicit false

/-!
# Pages of a report

The pages of a report are its rows cut into pieces: put together again in their order, they are all
rows, and each once.

## Main definitions

* `Cohort.Report.Plan.allRows` — the rows of a report without pages.

## Main results

* `Cohort.Report.flatMap_pageOf` — the pages of a list of rows together are the list.
* `Cohort.Report.Plan.flatMap_rows_onPage` — the pages of a report together are its rows.
-/

namespace Cohort.Report

variable {size : Nat} (rows : List Row)

/-- The first pages are the first rows, as many as there is room for on these pages. -/
lemma flatMap_pageOf_range (size pages : Nat) :
    (List.range pages).flatMap (fun k => pageOf (k + 1) size rows) = rows.take (pages * size) := by
  induction pages with
  | zero => simp
  | succ pages ih =>
    rw [List.range_succ, List.flatMap_append, ih, List.flatMap_singleton, Nat.succ_mul,
      List.take_add]
    rfl

/-- There is room for all rows on all pages. -/
lemma le_pagesFor_mul (hsize : 0 < size) (count : Nat) : count ≤ pagesFor count size * size := by
  unfold pagesFor
  have hmod := Nat.mod_lt (count + size - 1) hsize
  have hdiv := Nat.div_add_mod' (count + size - 1) size
  omega

/-- All pages together are all rows. -/
theorem flatMap_pageOf (hsize : 0 < size) :
    (List.range (pagesFor rows.length size)).flatMap (fun k => pageOf (k + 1) size rows) =
      rows := by
  rw [flatMap_pageOf_range]
  exact List.take_of_length_le (le_pagesFor_mul hsize rows.length)

namespace Plan

variable (p : Plan) (now : Instant) (subjects : List Subject)

/-- The rows of a report without pages. -/
def allRows (subjects : List Subject) : List Row := p.order (subjects.filterMap p.row?)

/-- A row on a page is the row of a subject. -/
lemma exists_row?_of_mem_rows {row : Row} (h : row ∈ (p.table now subjects).rows) :
    ∃ s ∈ subjects, p.row? s = some row := by
  have hall : row ∈ p.order (subjects.filterMap p.row?) :=
    List.mem_of_mem_drop (List.mem_of_mem_take h)
  rw [(p.order_perm _).mem_iff, List.mem_filterMap] at hall
  exact hall

/-- A page of a report has the rows that the page cuts out. -/
lemma rows_table_onPage (page : Nat) :
    ((p.onPage page).table now subjects).rows = pageOf page p.pageSize (p.allRows subjects) := rfl

/-- Every page says how many there are. -/
lemma totalPages_table_onPage (page : Nat) :
    ((p.onPage page).table now subjects).pagination.totalPages =
      pagesFor (p.allRows subjects).length p.pageSize := rfl

/-- The pages of a report together are its rows in order. -/
theorem flatMap_rows_onPage (hsize : 0 < p.pageSize) (page : Nat) :
    (List.range ((p.onPage page).table now subjects).pagination.totalPages).flatMap
        (fun k => ((p.onPage (k + 1)).table now subjects).rows) = p.allRows subjects := by
  simp only [totalPages_table_onPage, rows_table_onPage]
  exact flatMap_pageOf _ hsize

end Plan

end Cohort.Report
