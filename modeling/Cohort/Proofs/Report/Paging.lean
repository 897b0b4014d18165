import Mathlib.Data.UInt
import Cohort.Proofs.Report.Export
import Cohort.Proofs.Report.Pages
set_option relaxedAutoImplicit false
set_option autoImplicit false

/-!
# Paging

The rows of a report are cut into pages of one size. The pages together are all rows, the pages
before the last one are full, no page up to the last one is empty, and beyond it there is nothing.

Numbers of rows and pages are words of 64 bits, and the place of a page among the rows is worked out
in them: a product or a sum that is too great is replaced by the greatest word, which lies behind
all rows. Here every other step is checked. It gives nothing if it goes below zero, beyond the
greatest word or outside of the rows, or if it divides by zero; and this never happens.

## Main definitions

* `Cohort.Report.Word.sub?`, `Cohort.Report.Word.divCeil?`, `Cohort.Report.Word.saturatingMul` and
  others — arithmetic of words.
* `Cohort.Report.workOut?` — a page that is worked out in words.

## Main results

* `Cohort.Report.workOut?_eq` — no step goes wrong.
* `Cohort.Report.lt_pagesFor_iff` — which pages there are.
* `Cohort.Report.Plan.pages_whole` — what the pages of an accepted report hold.
-/

namespace Cohort.Report

/-! ### The number of pages -/

/-- The number of pages is the quotient, and one more if rows are left.

**Proof sketch.** The number of rows is split into quotient and remainder. The remainder and all but
one of another page make one page more, unless the remainder is zero. -/
lemma pagesFor_eq {size : Nat} (hsize : 0 < size) (count : Nat) :
    pagesFor count size = count / size + if count % size = 0 then 0 else 1 := by
  have hdiv := Nat.mod_add_div count size
  have hmod := Nat.mod_lt count hsize
  have hsplit : count + size - 1 = count % size + size - 1 + size * (count / size) := by omega
  rw [pagesFor, hsplit, Nat.add_mul_div_left _ _ hsize, Nat.add_comm]
  congr 1
  split
  case isTrue hnone => exact Nat.div_eq_of_lt (by omega)
  case isFalse hsome => exact Nat.div_eq_of_lt_le (by omega) (by omega)

/-- There is a page behind as many full ones as leave rows for it. -/
lemma lt_pagesFor_iff {size : Nat} (hsize : 0 < size) {page count : Nat} :
    page < pagesFor count size ↔ page * size < count := by
  rw [pagesFor, Nat.lt_iff_add_one_le, Nat.le_div_iff_mul_le hsize, Nat.succ_mul]
  omega

/-- A page has the rows from its place on, as many as there is room for. -/
lemma length_pageOf (page size : Nat) (rows : List Row) :
    (pageOf page size rows).length = min size (rows.length - (page - 1) * size) := by
  rw [pageOf, List.length_take, List.length_drop]

/-! ### Words -/

namespace Word

/-- The difference of two words, unless it is below zero. -/
def sub? (a b : UInt64) : Option UInt64 :=
  if b ≤ a then some (a - b) else none

/-- The sum of two words, unless it is above the greatest word. -/
def add? (a b : UInt64) : Option UInt64 :=
  if a.toNat + b.toNat < UInt64.size then some (a + b) else none

/-- The product of two words, unless it is above the greatest word. -/
def mul? (a b : UInt64) : Option UInt64 :=
  if a.toNat * b.toNat < UInt64.size then some (a * b) else none

/-- The quotient and the remainder of two words, unless the divisor is zero. -/
def divMod? (a b : UInt64) : Option (UInt64 × UInt64) :=
  if b = 0 then none else some (a / b, a % b)

/-- The quotient of two words, rounded up. -/
def divCeil? (a b : UInt64) : Option UInt64 := do
  let (quotient, remainder) ← divMod? a b
  if remainder = 0 then return quotient else add? quotient 1

/-- The greatest word. -/
def greatest : UInt64 := 0xFFFFFFFFFFFFFFFF

/-- The sum of two words, or the greatest word if it is above that. -/
def saturatingAdd (a b : UInt64) : UInt64 := (add? a b).getD greatest

/-- The product of two words, or the greatest word if it is above that. -/
def saturatingMul (a b : UInt64) : UInt64 := (mul? a b).getD greatest

variable {a b : UInt64}

/-- A difference of words that is not below zero is a word. -/
lemma sub?_eq_some (h : b ≤ a) : ∃ c, sub? a b = some c ∧ c.toNat = a.toNat - b.toNat :=
  ⟨a - b, if_pos h, UInt64.toNat_sub_of_le a b h⟩

/-- A sum of words that fits is a word. -/
lemma add?_eq_some (h : a.toNat + b.toNat < UInt64.size) :
    ∃ c, add? a b = some c ∧ c.toNat = a.toNat + b.toNat := by
  refine ⟨a + b, if_pos h, ?_⟩
  rw [UInt64.toNat_add]
  exact Nat.mod_eq_of_lt h

/-- A product of words that fits is a word. -/
lemma mul?_eq_some (h : a.toNat * b.toNat < UInt64.size) :
    ∃ c, mul? a b = some c ∧ c.toNat = a.toNat * b.toNat := by
  refine ⟨a * b, if_pos h, ?_⟩
  rw [UInt64.toNat_mul]
  exact Nat.mod_eq_of_lt h

/-- The greatest word is one less than there are words. -/
lemma toNat_greatest : greatest.toNat = UInt64.size - 1 := rfl

/-- A sum is cut at the greatest word. -/
lemma toNat_saturatingAdd (a b : UInt64) :
    (saturatingAdd a b).toNat = min (a.toNat + b.toNat) (UInt64.size - 1) := by
  unfold saturatingAdd
  by_cases h : a.toNat + b.toNat < UInt64.size
  · obtain ⟨c, hc, hvalue⟩ := add?_eq_some h
    rw [hc, Option.getD_some, hvalue]
    omega
  · have hnone : add? a b = none := if_neg h
    rw [hnone, Option.getD_none, toNat_greatest]
    omega

/-- A product is cut at the greatest word. -/
lemma toNat_saturatingMul (a b : UInt64) :
    (saturatingMul a b).toNat = min (a.toNat * b.toNat) (UInt64.size - 1) := by
  unfold saturatingMul
  by_cases h : a.toNat * b.toNat < UInt64.size
  · obtain ⟨c, hc, hvalue⟩ := mul?_eq_some h
    rw [hc, Option.getD_some, hvalue]
    omega
  · have hnone : mul? a b = none := if_neg h
    rw [hnone, Option.getD_none, toNat_greatest]
    omega

/-- Dividing and rounding up goes well, and gives the number of pages.

**Proof sketch.** Division goes well with a divisor other than zero. If there is a remainder the
divisor is greater than one, so the quotient leaves room for one more. -/
lemma divCeil?_eq_some (hb : 0 < b.toNat) :
    ∃ c, divCeil? a b = some c ∧ c.toNat = pagesFor a.toNat b.toNat := by
  have hne : b ≠ 0 := fun hzero => by
    rw [hzero] at hb
    exact absurd hb (by decide)
  have hparts : divMod? a b = some (a / b, a % b) := if_neg hne
  have hexact : a % b = 0 ↔ a.toNat % b.toNat = 0 := by
    rw [← UInt64.toNat_mod, ← UInt64.toNat_inj]
    rfl
  unfold divCeil?
  rw [hparts, Option.bind_eq_bind, Option.bind_some, pagesFor_eq hb]
  by_cases hremainder : a.toNat % b.toNat = 0
  · refine ⟨a / b, if_pos (hexact.2 hremainder), ?_⟩
    rw [if_pos hremainder, UInt64.toNat_div, Nat.add_zero]
  · have hroom : (a / b).toNat + (1 : UInt64).toNat < UInt64.size := by
      have hone : (1 : UInt64).toNat = 1 := rfl
      have hle : a.toNat / b.toNat ≤ b.toNat * (a.toNat / b.toNat) := Nat.le_mul_of_pos_left _ hb
      have hdiv := Nat.div_add_mod a.toNat b.toNat
      have ha : a.toNat < UInt64.size := a.toNat_lt
      rw [UInt64.toNat_div, hone]
      omega
    obtain ⟨c, hc, hvalue⟩ := add?_eq_some hroom
    refine ⟨c, (if_neg fun h => hremainder (hexact.1 h)).trans hc, ?_⟩
    rw [if_neg hremainder, hvalue, UInt64.toNat_div]
    rfl

end Word

/-! ### A page worked out in words -/

open Word

/-- The rows from a place up to another one, if these are places of rows in order. -/
def slice? (start stop : UInt64) (rows : List Row) : Option (List Row) :=
  if start ≤ stop ∧ stop.toNat ≤ rows.length then
    some ((rows.take stop.toNat).drop start.toNat)
  else none

/-- Where a page lies and the rows on it, worked out in words step by step. -/
def workOut? (page size : UInt64) (rows : List Row) : Option (Pagination × List Row) := do
  let total := UInt64.ofNat rows.length
  let pages ← divCeil? total size
  let before ← sub? page 1
  let start := min (saturatingMul before size) total
  let stop := min (saturatingAdd start size) total
  let cut ← slice? start stop rows
  return (⟨page.toNat, size.toNat, total.toNat, pages.toNat⟩, cut)

/-- The rows of a page lie between two places. -/
lemma drop_take_eq_pageOf (rows : List Row) (before size : Nat) :
    (rows.take (min (min (before * size) rows.length + size) rows.length)).drop
        (min (before * size) rows.length) = pageOf (before + 1) size rows := by
  rw [pageOf, Nat.add_sub_cancel, List.drop_take]
  rcases Nat.le_total (before * size) rows.length with hin | hout
  · rw [Nat.min_eq_left hin, List.take_eq_take_iff, List.length_drop]
    omega
  · rw [Nat.min_eq_right hout, List.drop_length, List.take_nil, List.drop_of_length_le hout,
      List.take_nil]

/-- No step goes wrong, and the page is found.

**Proof sketch.** The places where the page starts and stops are words, and saturation does not show
in them: they are cut at the number of rows anyway. Between them lies the page. -/
theorem workOut?_eq {page size : UInt64} {rows : List Row} (hpage : 0 < page.toNat)
    (hsize : 0 < size.toNat) (hrows : rows.length < UInt64.size) :
    workOut? page size rows =
      some (⟨page.toNat, size.toNat, rows.length, pagesFor rows.length size.toNat⟩,
        pageOf page.toNat size.toNat rows) := by
  have htotal : (UInt64.ofNat rows.length).toNat = rows.length :=
    UInt64.toNat_ofNat_of_lt' hrows
  obtain ⟨pages, hpages, hcount⟩ := divCeil?_eq_some (a := UInt64.ofNat rows.length) hsize
  have hone : (1 : UInt64) ≤ page := UInt64.le_iff_toNat_le.2 hpage
  obtain ⟨before, hbefore, hplace⟩ := sub?_eq_some hone
  have hbound : ∀ n, min (min n (UInt64.size - 1)) rows.length = min n rows.length := by
    intro n
    omega
  set start := min (saturatingMul before size) (UInt64.ofNat rows.length) with hstart
  set stop := min (saturatingAdd start size) (UInt64.ofNat rows.length) with hstop
  have hstartValue : start.toNat = min (before.toNat * size.toNat) rows.length := by
    rw [hstart, UInt64.toNat_min, toNat_saturatingMul, htotal, hbound]
  have hstopValue : stop.toNat = min (start.toNat + size.toNat) rows.length := by
    rw [hstop, UInt64.toNat_min, toNat_saturatingAdd, htotal, hbound]
  have hcut : slice? start stop rows = some (pageOf page.toNat size.toNat rows) := by
    have hpageValue : page.toNat = before.toNat + 1 := by
      have : (1 : UInt64).toNat = 1 := rfl
      omega
    have hplaces : start ≤ stop ∧ stop.toNat ≤ rows.length := by
      rw [UInt64.le_iff_toNat_le]
      omega
    rw [slice?, if_pos hplaces, hstopValue, hstartValue, drop_take_eq_pageOf, ← hpageValue]
  rw [htotal] at hcount
  simp only [workOut?, hpages, hbefore, Option.bind_eq_bind, Option.bind_some, ← hstart, ← hstop,
    hcut, htotal, hcount]
  rfl

/-! ### The pages of a report -/

namespace Plan

/-- The column that an accepted report is sorted by is one of its columns. -/
lemma sort_lt {paging : Paging} {snapshot : Snapshot} {spec : Spec} {plan : Plan}
    (h : compile paging snapshot spec = .ok plan) {place : Nat} {direction : Direction}
    (hsort : plan.sort = some (place, direction)) : place < plan.columns.length := by
  have hread := (compile_eq_ok.1 h).sort
  cases hspec : spec.sort with
  | none =>
    rw [(compile_eq_ok.1 h).sort_eq_none hspec] at hsort
    cases hsort
  | some sort =>
    rw [hspec, Option.mapM_some, hsort, readSort] at hread
    split at hread
    case h_1 found hfound =>
      cases hread
      exact (List.findIdx?_eq_some_iff_findIdx_eq.1 hfound).1
    case h_2 => cases hread

/-- No report has more rows than profiles. -/
lemma length_allRows_le (p : Plan) (subjects : List Subject) :
    (p.allRows subjects).length ≤ subjects.length := by
  rw [allRows, (p.order_perm _).length_eq]
  exact List.length_filterMap_le _ _

/-- The pages of an accepted report, with any bounds of pages. The report is accepted on every page,
and every page tells the same numbers of rows and pages. The pages together are all rows in order;
those before the last one are full, none up to the last one is empty, and beyond it there is
nothing. Each page can be worked out in words, up to the greatest one, and no step of that goes
wrong.

**Proof sketch.** A page asked for is the cut of all rows at its place (`rows_table_onPage`), and
there are rows at its place if and only if it is one of the pages (`lt_pagesFor_iff`). The parts
follow from the length of a cut. -/
theorem pages_whole {paging : Paging} {snapshot : Snapshot} {spec : Spec} {plan : Plan}
    (h : compile paging snapshot spec = .ok plan)
    (hsize : spec.pageSize.getD paging.defaultSize < UInt64.size) (now : Instant)
    (subjects : List Subject) (hsubjects : subjects.length < UInt64.size) :
    let table := fun page => (plan.onPage page).table now subjects
    let rows := plan.allRows subjects
    ∃ pages,
      (∀ page, 0 < page → compile paging snapshot (spec.onPage page) = .ok (plan.onPage page) ∧
        (table page).pagination = ⟨page, plan.pageSize, rows.length, pages⟩) ∧
      (List.range pages).flatMap (fun k => (table (k + 1)).rows) = rows ∧
      (∀ page, 0 < page → page < pages → (table page).rows.length = plan.pageSize) ∧
      (∀ page, 0 < page → page ≤ pages → (table page).rows ≠ []) ∧
      (∀ page, pages < page → (table page).rows = []) ∧
      (∀ page : UInt64, 0 < page.toNat → workOut? page (UInt64.ofNat plan.pageSize) rows =
        some ((table page.toNat).pagination, (table page.toNat).rows)) ∧
      ∀ place direction, plan.sort = some (place, direction) → place < plan.columns.length := by
  intro table rows
  have hplan := compile_eq_ok.1 h
  have hpositive : 0 < plan.pageSize := hplan.pageSize_pos
  have hrows : ∀ page, (table page).rows = pageOf page plan.pageSize rows := fun page =>
    plan.rows_table_onPage now subjects page
  have hlength : ∀ page, (table page).rows.length =
      min plan.pageSize (rows.length - (page - 1) * plan.pageSize) := fun page => by
    rw [hrows, length_pageOf]
  have hbefore : ∀ page, page - 1 < pagesFor rows.length plan.pageSize ↔
      (page - 1) * plan.pageSize < rows.length := fun page => lt_pagesFor_iff hpositive
  refine ⟨pagesFor rows.length plan.pageSize, ?_, plan.flatMap_rows_onPage now subjects hpositive 1,
    ?_, ?_, ?_, ?_, fun place direction => sort_lt h⟩
  · intro page hpage
    have haccepted := compile_onPage h page
    rw [Nat.max_eq_right hpage] at haccepted
    exact ⟨haccepted, rfl⟩
  · intro page hpage hlast
    have hfull : page * plan.pageSize < rows.length := (lt_pagesFor_iff hpositive).1 hlast
    -- the page ends where the next one starts, and that is before the last row
    have hplace : (page - 1) * plan.pageSize + plan.pageSize = page * plan.pageSize := by
      rw [← Nat.succ_mul, Nat.succ_eq_add_one, Nat.sub_add_cancel hpage]
    rw [hlength]
    omega
  · intro page hpage hlast hempty
    have hsome := (hbefore page).1 (by omega)
    have hnone := hlength page
    rw [hempty, List.length_nil] at hnone
    omega
  · intro page hlast
    have hnone := mt (hbefore page).2 (by omega)
    have hzero := hlength page
    exact List.eq_nil_of_length_eq_zero (by omega)
  · intro page hpage
    -- page sizes are cut to what a word holds
    have hword : (UInt64.ofNat plan.pageSize).toNat = plan.pageSize := by
      apply UInt64.toNat_ofNat_of_lt'
      rw [hplan.pageSize, Paging.sizeOf]
      have hone : 1 < UInt64.size := by decide
      omega
    have hroom := Nat.lt_of_le_of_lt (plan.length_allRows_le subjects) hsubjects
    rw [workOut?_eq hpage (by omega) hroom, hword, hrows]
    rfl

/-! ### Names on pages of their own -/

/-- The names of people, from the last one. -/
def sortedNames : Spec :=
  { nameReport "name" with sort := some ⟨"name", .descending⟩ }

/-- The same report as it is accepted where pages have no room by default and at most. -/
def singleNames : Plan :=
  { namePlan "name" with sort := some (0, .descending), pageSize := 1 }

/-- Ann, and somebody of another name. -/
def couple (other : String) : List Subject :=
  [ann, { ann with profile := ⟨other, none, .ofList [("name", .string other)], []⟩ }]

/-- Both people have a row. -/
lemma length_allRows_couple (other : String) :
    (singleNames.allRows (couple other)).length = 2 := by
  have hsome : ∀ s ∈ couple other, (singleNames.row? s).isSome = true := by
    intro s hs
    rw [row?, rowIn?]
    rfl
  have hall : (couple other).countP (fun s => (singleNames.row? s).isSome) = 2 :=
    List.countP_eq_length.2 hsome
  rw [allRows, (singleNames.order_perm _).length_eq, List.length_filterMap_eq_countP, hall]

/-- They stand on two pages, and the last page that can be asked for is empty. -/
theorem couple_pages :
    compile ⟨0, 0⟩ (.empty "p") sortedNames = .ok singleNames ∧
      ((singleNames.onPage 1).table epoch (couple "Bo")).rows ++
          ((singleNames.onPage 2).table epoch (couple "Bo")).rows =
        singleNames.allRows (couple "Bo") ∧
      ((singleNames.onPage Word.greatest.toNat).table epoch (couple "Bo")).rows = [] := by
  have hcompile : compile ⟨0, 0⟩ (.empty "p") sortedNames = .ok singleNames := by decide
  obtain ⟨pages, hpages, hall, -, -, hbeyond, -⟩ :=
    pages_whole hcompile (by decide) epoch (couple "Bo") (by decide)
  have htotal : pagesFor (singleNames.allRows (couple "Bo")).length 1 = pages :=
    congrArg Pagination.totalPages (hpages 1 Nat.one_pos).2
  rw [length_allRows_couple] at htotal
  obtain rfl : 2 = pages := htotal
  exact ⟨hcompile, by simpa [List.range_succ] using hall, hbeyond _ (by decide)⟩

end Plan

end Cohort.Report
