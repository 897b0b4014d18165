import Mathlib.Data.List.Nodup
import Mathlib.Tactic.ByContra
import Mathlib.Tactic.Lemma
import Cohort.Report.Table
set_option relaxedAutoImplicit false
set_option autoImplicit false

/-!
# Sorted rows

Rows are compared by what they show in a column and then by their profiles. The comparison has many
cases: rows that show nothing, numbers, what can be read as a number, and texts; and a descending
order turns only part of it round. It still compares one key of a row after the other, and each of
these comparisons is a total preorder. So sorting gives an order, and if no two rows are of the same
profile, then there is only one.

## Main definitions

* `Cohort.Report.Row.Shows` — the value that a row shows in a column.
* `Cohort.Report.Below` — the ascending order of values.
* `Cohort.Report.Precedes` — which row may stand before which.

## Main results

* `Cohort.Report.compareCells_eq_lt` — comparing values decides their order.
* `Cohort.Report.transCmp_compareRows` — comparing rows is consistent.
* `Cohort.Report.precedes_iff` — comparing rows decides which may stand before which.
* `Cohort.Report.eq_of_pairwise` — rows of different profiles have one order only.
* `Cohort.Report.sortRows_canonical` — sorting puts rows in order.
-/

namespace Cohort.Report

open Std (LawfulEqOrd OrientedCmp ReflCmp TransCmp)

/-! ### The order of rows -/

/-- A row shows a value in a column if the value stands there and is not null. -/
def Row.Shows (row : Row) (column : Nat) (v : Json) : Prop :=
  row.values[column]? = some v ∧ v ≠ .null

/-- The ascending order of values. As numbers, those that cannot be read as numbers come after those
that can, and are ordered as texts; otherwise all are ordered as texts. -/
inductive Below : (asNumbers : Bool) → Json → Json → Prop
  | numbers {v w : Json} {x y : Float} (left : v.toNumber? = some x) (right : w.toNumber? = some y)
      (less : Decimal.totalKey x < Decimal.totalKey y) : Below true v w
  | number {v w : Json} {x : Float} (left : v.toNumber? = some x) (right : w.toNumber? = none) :
      Below true v w
  | rest {v w : Json} (left : v.toNumber? = none) (right : w.toNumber? = none)
      (less : v.toText < w.toText) : Below true v w
  | texts {v w : Json} (less : v.toText < w.toText) : Below false v w

/-- Which of two values comes first in a direction. -/
def Direction.Ahead (asNumbers : Bool) : Direction → Json → Json → Prop
  | .ascending, v, w => Below asNumbers v w
  | .descending, v, w => Below asNumbers w v

/-- One profile comes before another, or is the same. -/
def Row.NotAfter (a b : Row) : Prop :=
  a.profileId < b.profileId ∨ a.profileId = b.profileId

/-- Which row may stand before which. Rows that show nothing come last in both directions; the
others are ordered by what they show; and rows that show equal values, or nothing, are ordered by
their profiles, ascending in both directions. -/
inductive Precedes (column : Nat) (direction : Direction) (asNumbers : Bool) : Row → Row → Prop
  | last {a b : Row} {v : Json} (left : a.Shows column v) (right : ∀ w, ¬ b.Shows column w) :
      Precedes column direction asNumbers a b
  | ordered {a b : Row} {v w : Json} (left : a.Shows column v) (right : b.Shows column w)
      (ahead : direction.Ahead asNumbers v w) : Precedes column direction asNumbers a b
  | equal {a b : Row} {v w : Json} (left : a.Shows column v) (right : b.Shows column w)
      (notLess : ¬ Below asNumbers v w) (notGreater : ¬ Below asNumbers w v)
      (profile : a.NotAfter b) : Precedes column direction asNumbers a b
  | nothing {a b : Row} (left : ∀ v, ¬ a.Shows column v) (right : ∀ w, ¬ b.Shows column w)
      (profile : a.NotAfter b) : Precedes column direction asNumbers a b

/-! ### Comparing values -/

/-- Texts compare as less if they come first in the order of texts. -/
lemma compare_texts_eq_lt {s t : String} : compare s t = .lt ↔ s < t :=
  compareOfLessAndEq_eq_lt

/-- Comparing values decides which one is below the other.

**Proof sketch.** By what the values are as numbers, in the one direction, and by the reason why one
is below the other, in the other direction. -/
theorem compareCells_eq_lt {asNumbers : Bool} {v w : Json} :
    compareCells asNumbers v w = .lt ↔ Below asNumbers v w := by
  constructor
  · intro hless
    cases asNumbers with
    | false => exact .texts (compare_texts_eq_lt.mp hless)
    | true =>
      unfold compareCells at hless
      cases hv : v.toNumber? with
      | none =>
        cases hw : w.toNumber? with
        | none =>
          simp only [hv, hw] at hless
          exact .rest hv hw (compare_texts_eq_lt.mp hless)
        | some y => simp [hv, hw] at hless
      | some x =>
        cases hw : w.toNumber? with
        | none => exact .number hv hw
        | some y =>
          simp only [hv, hw] at hless
          exact .numbers hv hw (Std.compare_eq_lt.mp hless)
  · intro hbelow
    cases hbelow with
    | numbers left right less =>
      simp only [compareCells, left, right]
      exact Std.compare_eq_lt.mpr less
    | number left right => simp only [compareCells, left, right]
    | rest left right less =>
      simp only [compareCells, left, right]
      exact compare_texts_eq_lt.mpr less
    | texts less => exact compare_texts_eq_lt.mpr less

/-- Numbers stand before what cannot be read as a number. -/
def numberRank (v : Json) : Nat :=
  if v.toNumber?.isSome then 0 else 1

/-- The place of a number among the numbers; what is no number has the same place as all others. -/
def numberKey (v : Json) : Int :=
  (v.toNumber?.map Decimal.totalKey).getD 0

/-- The text of what cannot be read as a number; all numbers have the same. -/
def restText (v : Json) : String :=
  if v.toNumber?.isSome then "" else v.toText

/-- Zero compares as less than one. -/
lemma compare_zero_one : compare 0 1 = .lt := rfl

/-- One compares as greater than zero. -/
lemma compare_one_zero : compare 1 0 = .gt := rfl

/-- Comparing values as numbers compares three keys, one after the other. -/
lemma compareCells_numbers :
    compareCells true =
      compareLex (compareOn numberRank)
        (compareLex (compareOn numberKey) (compareOn restText)) := by
  funext v w
  cases hv : v.toNumber? <;> cases hw : w.toNumber? <;>
    simp [compareCells, compareLex, compareOn, numberRank, numberKey, restText, hv, hw,
      compare_zero_one, compare_one_zero]

/-- Comparing values is consistent. -/
instance transCmp_compareCells (asNumbers : Bool) : TransCmp (compareCells asNumbers) := by
  cases asNumbers with
  | false =>
    show TransCmp (compareOn Json.toText)
    infer_instance
  | true =>
    rw [compareCells_numbers]
    infer_instance

/-- Equal are the values of which neither is below the other. -/
lemma compareCells_eq_eq {asNumbers : Bool} {v w : Json} :
    compareCells asNumbers v w = .eq ↔ ¬ Below asNumbers v w ∧ ¬ Below asNumbers w v := by
  rw [← compareCells_eq_lt, ← compareCells_eq_lt, ← OrientedCmp.gt_iff_lt (a := v) (b := w)]
  cases compareCells asNumbers v w <;> simp

/-! ### Comparing rows -/

/-- A consistent comparison is consistent in both directions. -/
lemma transCmp_apply {α : Type} {cmp : α → α → Ordering} [TransCmp cmp] (direction : Direction) :
    TransCmp fun a b => direction.apply (cmp a b) := by
  cases direction with
  | ascending =>
    show TransCmp cmp
    infer_instance
  | descending =>
    have hswap : (fun a b => (cmp a b).swap) = fun a b => cmp b a := by
      funext a b
      exact OrientedCmp.eq_swap.symm
    show TransCmp fun a b => (cmp a b).swap
    rw [hswap]
    exact TransCmp.opposite

/-- Rows that show nothing stand after the others. -/
def absenceRank (column : Nat) (row : Row) : Nat :=
  if row.cell column = .null then 1 else 0

/-- Comparing rows compares three keys, one after the other: whether they show anything, what they
show, and their profiles.

**Proof sketch.** By whether the two rows show anything. Where neither does, what they show is null
in both and does not tell them apart. -/
lemma compareRows_eq (column : Nat) (direction : Direction) (asNumbers : Bool) :
    compareRows column direction asNumbers =
      compareLex (compareOn (absenceRank column))
        (compareLex
          (fun a b => direction.apply (compareCells asNumbers (a.cell column) (b.cell column)))
          (compareOn Row.profileId)) := by
  have hnulls : direction.apply (compareCells asNumbers .null .null) = .eq := by
    have hself : compareCells asNumbers .null .null = .eq := ReflCmp.compare_self
    rw [hself]
    cases direction <;> rfl
  funext a b
  by_cases ha : a.cell column = .null <;> by_cases hb : b.cell column = .null <;>
    simp [compareRows, compareLex, compareOn, absenceRank, ha, hb, hnulls, compare_zero_one,
      compare_one_zero]

/-- Comparing rows is consistent. -/
instance transCmp_compareRows (column : Nat) (direction : Direction) (asNumbers : Bool) :
    TransCmp (compareRows column direction asNumbers) := by
  have hvalues : TransCmp fun v w => direction.apply (compareCells asNumbers v w) :=
    transCmp_apply direction
  have hcells : TransCmp fun a b : Row =>
      direction.apply (compareCells asNumbers (a.cell column) (b.cell column)) :=
    { eq_swap := hvalues.eq_swap, isLE_trans := hvalues.isLE_trans }
  rw [compareRows_eq]
  infer_instance

/-- What a row shows is what stands in its cell, unless that is null. -/
lemma Row.shows_iff {row : Row} {column : Nat} {v : Json} :
    row.Shows column v ↔ row.cell column = v ∧ v ≠ .null := by
  unfold Row.Shows Row.cell
  cases row.values[column]? with
  | none =>
    simp only [reduceCtorEq, false_and, Option.getD_none, false_iff, not_and, not_not]
    exact Eq.symm
  | some w => simp

/-- A row shows nothing, or it shows what stands in its cell. -/
lemma Row.shows_or {column : Nat} (row : Row) :
    (∀ v, ¬ row.Shows column v) ∨ row.Shows column (row.cell column) := by
  by_cases hcell : row.cell column = .null
  · left
    intro v hv
    rw [Row.shows_iff] at hv
    exact hv.2 (hv.1.symm.trans hcell)
  · right
    exact Row.shows_iff.mpr ⟨rfl, hcell⟩

/-- The cell of a row that shows nothing is null. -/
lemma Row.cell_eq_null {row : Row} {column : Nat} (h : ∀ v, ¬ row.Shows column v) :
    row.cell column = .null := by
  by_contra hcell
  exact h _ (Row.shows_iff.mpr ⟨rfl, hcell⟩)

section

variable {column : Nat} {direction : Direction} {asNumbers : Bool} {a b : Row} {v w : Json}

/-- Rows that show something compare by it and then by their profiles. -/
lemma compareRows_of_shows (left : a.Shows column v) (right : b.Shows column w) :
    compareRows column direction asNumbers a b =
      (direction.apply (compareCells asNumbers v w)).then (compare a.profileId b.profileId) := by
  obtain ⟨rfl, ha⟩ := Row.shows_iff.mp left
  obtain ⟨rfl, hb⟩ := Row.shows_iff.mp right
  simp [compareRows, ha, hb]

/-- A row that shows something stands before one that shows nothing, in both directions. -/
lemma compareRows_of_last (left : a.Shows column v) (right : ∀ w, ¬ b.Shows column w) :
    compareRows column direction asNumbers a b = .lt := by
  obtain ⟨rfl, ha⟩ := Row.shows_iff.mp left
  simp [compareRows, ha, Row.cell_eq_null right]

/-- Rows that show nothing compare by their profiles. -/
lemma compareRows_of_nothing (left : ∀ v, ¬ a.Shows column v) (right : ∀ w, ¬ b.Shows column w) :
    compareRows column direction asNumbers a b = compare a.profileId b.profileId := by
  simp [compareRows, Row.cell_eq_null left, Row.cell_eq_null right]

/-- Comparing profiles decides which row is not after which. -/
lemma Row.compare_ne_gt : compare a.profileId b.profileId ≠ .gt ↔ a.NotAfter b := by
  rw [ne_eq, Ordering.ne_gt_iff_isLE, Ordering.isLE_iff_eq_lt_or_eq_eq, compare_texts_eq_lt,
    LawfulEqOrd.compare_eq_iff_eq, Row.NotAfter]

/-- Comparing values in a direction decides which one comes first. -/
lemma Direction.apply_eq_lt :
    direction.apply (compareCells asNumbers v w) = .lt ↔ direction.Ahead asNumbers v w := by
  cases direction with
  | ascending => exact compareCells_eq_lt
  | descending =>
    show (compareCells asNumbers v w).swap = .lt ↔ Below asNumbers w v
    rw [← OrientedCmp.eq_swap, compareCells_eq_lt]

/-- The same values are equal in both directions. -/
lemma Direction.apply_eq_eq :
    direction.apply (compareCells asNumbers v w) = .eq ↔
      ¬ Below asNumbers v w ∧ ¬ Below asNumbers w v := by
  rw [← compareCells_eq_eq]
  cases direction <;> cases compareCells asNumbers v w <;> simp [Direction.apply]

/-- A comparison by two keys, one after the other, is the one by the first key unless that is
equal. -/
lemma then_ne_gt {o₁ o₂ : Ordering} : o₁.then o₂ ≠ .gt ↔ o₁ = .lt ∨ o₁ = .eq ∧ o₂ ≠ .gt := by
  cases o₁ <;> simp

/-- Comparing rows decides which may stand before which.

**Proof sketch.** By whether the rows show something in the column, in the one direction, and by the
reason why one may stand before the other, in the other direction. -/
theorem precedes_iff :
    compareRows column direction asNumbers a b ≠ .gt ↔ Precedes column direction asNumbers a b := by
  constructor
  · intro hrows
    rcases a.shows_or with left | left
    · rcases b.shows_or with right | right
      · rw [compareRows_of_nothing left right, Row.compare_ne_gt] at hrows
        exact .nothing left right hrows
      · exact absurd (OrientedCmp.gt_iff_lt.mpr (compareRows_of_last right left)) hrows
    · rcases b.shows_or with right | right
      · exact .last left right
      · rw [compareRows_of_shows left right, then_ne_gt] at hrows
        rcases hrows with hless | ⟨hequal, hprofile⟩
        · exact .ordered left right (Direction.apply_eq_lt.mp hless)
        · obtain ⟨notLess, notGreater⟩ := Direction.apply_eq_eq.mp hequal
          exact .equal left right notLess notGreater (Row.compare_ne_gt.mp hprofile)
  · intro hprecedes
    cases hprecedes with
    | last left right => simp [compareRows_of_last left right]
    | ordered left right ahead =>
      rw [compareRows_of_shows left right, then_ne_gt]
      left
      exact Direction.apply_eq_lt.mpr ahead
    | equal left right notLess notGreater profile =>
      rw [compareRows_of_shows left right, then_ne_gt]
      right
      exact ⟨Direction.apply_eq_eq.mpr ⟨notLess, notGreater⟩, Row.compare_ne_gt.mpr profile⟩
    | nothing left right profile =>
      rw [compareRows_of_nothing left right]
      exact Row.compare_ne_gt.mpr profile

/-- Which row may stand before which is transitive. -/
lemma Precedes.trans {c : Row} (left : Precedes column direction asNumbers a b)
    (right : Precedes column direction asNumbers b c) :
    Precedes column direction asNumbers a c := by
  rw [← precedes_iff, ne_eq, Ordering.ne_gt_iff_isLE] at left right ⊢
  exact TransCmp.isLE_trans left right

variable (column direction asNumbers a b) in
/-- Of two rows one may stand before the other. -/
lemma Precedes.total :
    Precedes column direction asNumbers a b ∨ Precedes column direction asNumbers b a := by
  rw [← precedes_iff, ← precedes_iff, ne_eq, ne_eq, OrientedCmp.gt_iff_lt]
  by_cases hless : compareRows column direction asNumbers b a = .lt
  · right
    simp [hless]
  · left
    exact hless

/-- Rows of which each may stand before the other are of the same profile. -/
lemma Precedes.profileId_eq (left : Precedes column direction asNumbers a b)
    (right : Precedes column direction asNumbers b a) : a.profileId = b.profileId := by
  rw [← precedes_iff, ne_eq, Ordering.ne_gt_iff_isLE] at left right
  have hequal : compareRows column direction asNumbers a b = .eq :=
    OrientedCmp.isLE_antisymm left right
  rw [compareRows_eq, compareLex_eq_eq, compareLex_eq_eq] at hequal
  exact LawfulEqOrd.eq_of_compare hequal.2.2

end

/-! ### Sorting -/

section

variable {column : Nat} {direction : Direction} {numeric asNumbers : Bool} {rows others : List Row}

/-- The values of a column are read as numbers if each value that a row shows there can be. -/
lemma allNumbers_iff :
    allNumbers rows column = true ↔
      ∀ row ∈ rows, ∀ v, row.Shows column v → v.toNumber?.isSome = true := by
  simp only [allNumbers, List.all_eq_true, Bool.or_eq_true, decide_eq_true_eq]
  constructor
  · intro hcells row hrow v hv
    obtain ⟨rfl, hshown⟩ := Row.shows_iff.mp hv
    exact (hcells row hrow).resolve_left hshown
  · intro hvalues row hrow
    rcases row.shows_or with hnothing | hshown
    · left
      exact Row.cell_eq_null hnothing
    · right
      exact hvalues row hrow _ hshown

/-- Rows sorted by a comparison stand in its order. -/
lemma pairwise_sorted (column : Nat) (direction : Direction) (asNumbers : Bool) (rows : List Row) :
    (rows.mergeSort fun a b => compareRows column direction asNumbers a b != .gt).Pairwise
      (Precedes column direction asNumbers) := by
  have hsorted :
      (rows.mergeSort fun a b => compareRows column direction asNumbers a b != .gt).Pairwise
        fun a b => (compareRows column direction asNumbers a b != .gt) = true := by
    apply List.pairwise_mergeSort
    · intro a b c hab hbc
      simp only [bne_iff_ne, precedes_iff] at hab hbc ⊢
      exact hab.trans hbc
    · intro a b
      simp only [Bool.or_eq_true, bne_iff_ne, precedes_iff]
      exact Precedes.total column direction asNumbers a b
  apply hsorted.imp
  intro a b hrows
  exact precedes_iff.mp (bne_iff_ne.mp hrows)

/-- Rows of different profiles have one order only. -/
theorem eq_of_pairwise (distinct : (rows.map Row.profileId).Nodup) (perm : others.Perm rows)
    (left : others.Pairwise (Precedes column direction asNumbers))
    (right : rows.Pairwise (Precedes column direction asNumbers)) : others = rows := by
  refine List.Perm.eq_of_pairwise ?_ left right perm
  intro a b ha hb hab hba
  exact List.inj_on_of_nodup_map distinct (perm.mem_iff.mp ha) hb (hab.profileId_eq hba)

end

/-- Sorting puts rows in order: those that show nothing last, the others by what they show, and
equal ones by their profiles. The order does not depend on how rows of different profiles stood
before.

**Proof sketch.** Comparing rows compares three keys, one after the other, so it is transitive and
total, and sorting gives an order. Rows of which each may stand before the other are of the same
profile, so if the profiles are distinct there is only one order of the rows. -/
theorem sortRows_canonical (column : Nat) (direction : Direction) (numeric : Bool)
    (rows : List Row) :
    ∃ asNumbers : Bool,
      (asNumbers = true ↔ numeric = true ∨
        ∀ row ∈ rows, ∀ v, row.Shows column v → v.toNumber?.isSome = true) ∧
      (sortRows column direction numeric rows).Perm rows ∧
      (sortRows column direction numeric rows).Pairwise
        (Precedes column direction asNumbers) ∧
      ((rows.map Row.profileId).Nodup → ∀ others : List Row, others.Perm rows →
        sortRows column direction numeric others = sortRows column direction numeric rows) := by
  refine ⟨numeric || allNumbers rows column, ?_, List.mergeSort_perm .., pairwise_sorted .., ?_⟩
  · rw [Bool.or_eq_true, allNumbers_iff]
  · intro distinct others perm
    have hmode : allNumbers others column = allNumbers rows column := perm.all_eq
    have hperm : (sortRows column direction numeric others).Perm
        (sortRows column direction numeric rows) :=
      (List.mergeSort_perm ..).trans (perm.trans (List.mergeSort_perm ..).symm)
    have hdistinct : ((sortRows column direction numeric rows).map Row.profileId).Nodup :=
      ((List.mergeSort_perm ..).map Row.profileId).nodup_iff.mpr distinct
    have hothers : (sortRows column direction numeric others).Pairwise
        (Precedes column direction (numeric || allNumbers rows column)) := by
      rw [← hmode]
      exact pairwise_sorted ..
    exact eq_of_pairwise hdistinct hperm hothers (pairwise_sorted ..)

/-! ### A column with numbers, texts and gaps -/

/-- Somebody whose age is not known, somebody of ten, somebody of nine, and two without an age. -/
def ages : List Row :=
  [⟨"cat", [.string "unknown"], false⟩, ⟨"bob", [.number (.integer 10)], false⟩,
    ⟨"ann", [.string "9"], false⟩, ⟨"dan", [.null], false⟩, ⟨"eve", [], false⟩]

/-- This is their descending order, also if they stood the other way round before. -/
theorem sortRows_ages : (ages.map Row.profileId).Nodup ∧
    sortRows 0 .descending true ages.reverse = ages := by
  obtain ⟨-, -, -, -, hcanonical⟩ := sortRows_canonical 0 .descending true ages
  have hdistinct : (ages.map Row.profileId).Nodup := by decide
  have hsorted : sortRows 0 .descending true ages = ages := by
    apply List.mergeSort_of_pairwise
    decide +kernel
  exact ⟨hdistinct, (hcanonical hdistinct ages.reverse (List.reverse_perm ages)).trans hsorted⟩

end Cohort.Report
