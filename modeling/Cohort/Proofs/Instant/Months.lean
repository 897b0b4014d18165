import Mathlib.Order.Lattice
import Cohort.Proofs.Instant.Calendar
set_option relaxedAutoImplicit false
set_option autoImplicit false

/-!
# Months before a date

Months follow each other without gaps, so a date in an earlier month is an earlier day. The same day
so many months earlier is a later date for a later date, but not strictly: days that the earlier
month does not have all become its last day.

## Main definitions

* `Cohort.Date.monthIndex` — the count of months.
* `Cohort.Date.monthStart`, `Cohort.Date.monthSize` — where a month starts and how many days it has.

## Main results

* `Cohort.Date.dayNumber_lt` — a date in an earlier month is an earlier day.
* `Cohort.Date.ofDayNumber_dayNumber` — the date of the day of a date.
* `Cohort.Date.dayNumber_subtractMonths_anti` — more months earlier is not later.
* `Cohort.Date.dayNumber_subtractMonths_le`, `Cohort.Date.dayNumber_subtractMonths_eq_iff` — the
  same number of months before two dates. -/

namespace Cohort.Date

variable {d d' : Date} {i j : Int}

/-! ### Months in a row -/

/-- The number of the month of a date, counted from January of year 0. -/
def monthIndex (d : Date) : Int :=
  12 * d.year + (d.month - 1)

/-- The days between 1 January of year 1 and the first day of a month. -/
def monthStart (i : Int) : Int :=
  daysBeforeYear (i / 12) + daysBeforeMonth (i / 12) ((i % 12).toNat + 1)

/-- The number of days of a month. -/
def monthSize (i : Int) : Nat :=
  monthLength (i / 12) ((i % 12).toNat + 1)

/-- The days before a month are those before the last one and its own. -/
lemma daysBeforeMonth_succ (year : Int) (n : Nat) :
    daysBeforeMonth year (n + 1 + 1) = daysBeforeMonth year (n + 1) + monthLength year (n + 1) := by
  rw [daysBeforeMonth, daysBeforeMonth, monthLength, if_neg (Nat.succ_ne_zero n),
    Nat.add_sub_cancel, Nat.add_sub_cancel, List.take_add_one, List.foldl_append,
    List.getD_eq_getElem?_getD]
  cases (monthLengths year)[n]? <;> simp

/-- A month has at least one day. -/
lemma monthSize_pos (i : Int) : 0 < monthSize i := by
  have hlengths : ∀ length ∈ monthLengths (i / 12), 0 < length := by
    unfold monthLengths
    split <;> decide
  have hplace : (i % 12).toNat < (monthLengths (i / 12)).length := by
    change (i % 12).toNat < 12
    omega
  rw [monthSize, monthLength, if_neg (Nat.succ_ne_zero _), Nat.add_sub_cancel,
    List.getD_eq_getElem?_getD, List.getElem?_eq_getElem hplace, Option.getD_some]
  exact hlengths _ (List.getElem_mem hplace)

/-- A month starts where the one before it ends.

**Proof sketch.** Within a year a month follows on the one before it. After December the next year
starts, which is as many days later as the months of the year have. -/
lemma monthStart_succ (i : Int) : monthStart (i + 1) = monthStart i + monthSize i := by
  have hsame : daysBeforeYear (i / 12) + daysBeforeMonth (i / 12) ((i % 12).toNat + 1 + 1) =
      monthStart i + monthSize i := by
    rw [daysBeforeMonth_succ, monthStart, monthSize]
    omega
  rw [← hsame]
  by_cases hlast : i % 12 = 11
  · -- December: the next month is January of the next year
    have hyear : (i + 1) / 12 = i / 12 + 1 := by omega
    have hmonth : (i + 1) % 12 = 0 := by omega
    rw [monthStart, hyear, hmonth, hlast, daysBeforeYear_succ]
    exact Int.add_zero _
  · have hyear : (i + 1) / 12 = i / 12 := by omega
    have hmonth : ((i + 1) % 12).toNat = (i % 12).toNat + 1 := by omega
    rw [monthStart, hyear, hmonth]

/-- Later months do not start before. -/
lemma monthStart_mono (h : i ≤ j) : monthStart i ≤ monthStart j := by
  obtain ⟨n, rfl⟩ := Int.le.dest h
  clear h
  induction n with
  | zero => exact Int.le_of_eq (congrArg monthStart (Int.add_zero i).symm)
  | succ n ih =>
    rw [Int.natCast_succ, ← Int.add_assoc, monthStart_succ]
    omega

/-! ### Dates in months -/

/-- The place of a month in its year, counted from one. -/
lemma monthIndex_parts (hpos : 1 ≤ d.month) (hle : d.month ≤ 12) :
    d.monthIndex / 12 = d.year ∧ (d.monthIndex % 12).toNat + 1 = d.month := by
  unfold monthIndex
  omega

/-- A date has one of twelve months, and one of the days of the month. -/
lemma range_of_isValid (h : d.isValid) :
    1 ≤ d.month ∧ d.month ≤ 12 ∧ 1 ≤ d.day ∧ d.day ≤ monthSize d.monthIndex := by
  obtain ⟨hle, -⟩ := le_of_isValid h
  rw [isValid, Bool.and_eq_true, decide_eq_true_eq, decide_eq_true_eq] at h
  obtain ⟨hday, hsize⟩ := h
  have hpos : 1 ≤ d.month := by
    refine Nat.one_le_iff_ne_zero.2 fun hzero => ?_
    rw [monthLength, if_pos hzero] at hsize
    omega
  obtain ⟨hyear, hmonth⟩ := monthIndex_parts hpos hle
  refine ⟨hpos, hle, hday, ?_⟩
  rwa [monthSize, hyear, hmonth]

/-- The day of a date is counted from the start of its month. -/
lemma dayNumber_eq (h : d.isValid) :
    d.dayNumber = monthStart d.monthIndex + (d.day - 1) - epochOffset := by
  obtain ⟨hpos, hle, -, -⟩ := range_of_isValid h
  obtain ⟨hyear, hmonth⟩ := monthIndex_parts hpos hle
  rw [monthStart, hyear, hmonth, dayNumber]

/-- A date in an earlier month is an earlier day. -/
theorem dayNumber_lt (hd : d.isValid) (hd' : d'.isValid) (h : d.monthIndex < d'.monthIndex) :
    d.dayNumber < d'.dayNumber := by
  obtain ⟨-, -, -, hsize⟩ := range_of_isValid hd
  obtain ⟨-, -, hday, -⟩ := range_of_isValid hd'
  have hstart : monthStart (d.monthIndex + 1) ≤ monthStart d'.monthIndex := monthStart_mono h
  rw [monthStart_succ] at hstart
  rw [dayNumber_eq hd, dayNumber_eq hd']
  omega

/-- An earlier day is one of an earlier month, or an earlier one of the same month. -/
lemma dayNumber_le_iff (hd : d.isValid) (hd' : d'.isValid) :
    d.dayNumber ≤ d'.dayNumber ↔
      d.monthIndex < d'.monthIndex ∨ d.monthIndex = d'.monthIndex ∧ d.day ≤ d'.day := by
  rcases lt_trichotomy d.monthIndex d'.monthIndex with hlt | heq | hgt
  · have hdays := dayNumber_lt hd hd' hlt
    omega
  · rw [dayNumber_eq hd, dayNumber_eq hd', heq]
    omega
  · have hdays := dayNumber_lt hd' hd hgt
    omega

/-- A day has one date.

**Proof sketch.** Dates are ordered by their months and then by their days, so two dates of one day
agree in both; and a month has one year and one place in it. -/
lemma eq_of_dayNumber_eq (hd : d.isValid) (hd' : d'.isValid) (h : d.dayNumber = d'.dayNumber) :
    d = d' := by
  obtain ⟨hpos, hle, -, -⟩ := range_of_isValid hd
  obtain ⟨hpos', hle', -, -⟩ := range_of_isValid hd'
  obtain ⟨hyear, hmonth⟩ := monthIndex_parts hpos hle
  obtain ⟨hyear', hmonth'⟩ := monthIndex_parts hpos' hle'
  have hbefore := (dayNumber_le_iff hd hd').1 h.le
  have hafter := (dayNumber_le_iff hd' hd).1 h.ge
  have hindex : d.monthIndex = d'.monthIndex := by omega
  have hday : d.day = d'.day := by omega
  rw [hindex] at hyear hmonth
  obtain ⟨year, month, day⟩ := d
  obtain ⟨year', month', day'⟩ := d'
  rw [mk.injEq]
  exact ⟨hyear.symm.trans hyear', hmonth.symm.trans hmonth', hday⟩

/-- The date of the day of a date is that date. -/
theorem ofDayNumber_dayNumber (h : d.isValid) : ofDayNumber d.dayNumber = d :=
  eq_of_dayNumber_eq (isValid_ofDayNumber _) h (dayNumber_ofDayNumber _)

/-- A year starts with its first date. -/
lemma dayNumber_lt_newYear_iff (h : d.isValid) (year : Int) :
    d.dayNumber < (⟨year, 1, 1⟩ : Date).dayNumber ↔ d.year < year := by
  obtain ⟨hpos, hle, hday, -⟩ := range_of_isValid h
  have hfirst : (⟨year, 1, 1⟩ : Date).day = 1 := rfl
  have hindex : (⟨year, 1, 1⟩ : Date).monthIndex = 12 * year := by
    change 12 * year + (1 - 1) = 12 * year
    omega
  have hvalid : (⟨year, 1, 1⟩ : Date).isValid := by
    unfold isValid monthLength monthLengths
    rfl
  rw [← Int.not_le, dayNumber_le_iff hvalid h, hindex, hfirst, monthIndex]
  omega

/-! ### Months earlier -/

/-- So many months earlier the month is the one with the number so much less, and the day is the
same, or the last one if there are fewer. -/
lemma subtractMonths_spec (h : d.isValid) (months : Nat) :
    (d.subtractMonths months).isValid ∧
      (d.subtractMonths months).monthIndex = d.monthIndex - months ∧
      (d.subtractMonths months).day = min d.day (monthSize (d.monthIndex - months)) := by
  obtain ⟨-, -, hday, -⟩ := range_of_isValid h
  have hsize := monthSize_pos (d.monthIndex - months)
  refine ⟨?_, ?_, rfl⟩
  · rw [isValid, Bool.and_eq_true, decide_eq_true_eq, decide_eq_true_eq]
    exact ⟨le_min hday hsize, min_le_right _ _⟩
  · simp only [subtractMonths, monthIndex]
    omega

/-- More months earlier is not later. -/
theorem dayNumber_subtractMonths_anti (h : d.isValid) {m n : Nat} (hmn : m ≤ n) :
    (d.subtractMonths n).dayNumber ≤ (d.subtractMonths m).dayNumber := by
  obtain ⟨hvalid, hindex, -⟩ := subtractMonths_spec h m
  obtain ⟨hvalid', hindex', -⟩ := subtractMonths_spec h n
  obtain rfl | hlt := hmn.eq_or_lt
  · exact le_rfl
  · refine (dayNumber_lt hvalid' hvalid ?_).le
    omega

/-- No months earlier is the same day. -/
lemma subtractMonths_zero (h : d.isValid) : d.subtractMonths 0 = d := by
  obtain ⟨hpos, hle, -, hsize⟩ := range_of_isValid h
  obtain ⟨hyear, hmonth⟩ := monthIndex_parts hpos hle
  rw [monthSize, hyear, hmonth] at hsize
  have htarget : 12 * d.year + (d.month - 1 : Int) - (0 : Nat) = d.monthIndex := Int.sub_zero _
  simp only [subtractMonths, htarget, hyear, hmonth, min_eq_left hsize]

variable (hd : d.isValid) (hd' : d'.isValid) (months : Nat)
include hd hd'

/-- So many months before a later date is not earlier. -/
theorem dayNumber_subtractMonths_le (hle : d.dayNumber ≤ d'.dayNumber) :
    (d.subtractMonths months).dayNumber ≤ (d'.subtractMonths months).dayNumber := by
  obtain ⟨hvalid, hindex, hday⟩ := subtractMonths_spec hd months
  obtain ⟨hvalid', hindex', hday'⟩ := subtractMonths_spec hd' months
  rw [dayNumber_le_iff hd hd'] at hle
  rw [dayNumber_le_iff hvalid hvalid', hindex, hindex', hday, hday']
  rcases hle with hlt | ⟨heq, hle⟩
  · exact .inl (by omega)
  · rw [heq]
    exact .inr ⟨rfl, by omega⟩

/-- So many months before two dates are one day if the dates are days of one month that the earlier
month does not have, apart from its last one.

**Proof sketch.** Dates of different months stay in different months. In one month the days are cut
to the size of the earlier month, and they meet only if the smaller one is cut or is the last. -/
theorem dayNumber_subtractMonths_eq_iff (hlt : d.dayNumber < d'.dayNumber) :
    (d.subtractMonths months).dayNumber = (d'.subtractMonths months).dayNumber ↔
      d.monthIndex = d'.monthIndex ∧ monthSize (d.monthIndex - months) ≤ d.day := by
  obtain ⟨hvalid, hindex, hday⟩ := subtractMonths_spec hd months
  obtain ⟨hvalid', hindex', hday'⟩ := subtractMonths_spec hd' months
  have hle := (dayNumber_le_iff hd hd').1 hlt.le
  rw [dayNumber_eq hd, dayNumber_eq hd'] at hlt
  rcases hle with hearlier | ⟨heq, hle⟩
  · have hdays := dayNumber_lt hvalid hvalid' (by omega)
    omega
  · rw [dayNumber_eq hvalid, dayNumber_eq hvalid', hindex, hindex', hday, hday', ← heq]
    rw [heq] at hlt
    omega

end Cohort.Date
