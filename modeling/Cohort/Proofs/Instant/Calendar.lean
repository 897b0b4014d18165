import Mathlib.Tactic.Lemma
import Cohort.Instant.Calendar
set_option relaxedAutoImplicit false
set_option autoImplicit false

/-!
# Days and dates

Every day has one date: a month of its year has the day, and the day can be counted back from the
date.

## Main results

* `Cohort.Date.yearOfDay_spec` — a day lies between the starts of its year and of the next one.
* `Cohort.Date.isValid_ofDayNumber` — the date of a day is one.
* `Cohort.Date.dayNumber_ofDayNumber` — the day of the date of a day.
-/

namespace Cohort.Date

/-! ### Years -/

/-- A day lies between the start of its year and that of the next one.

**Proof sketch.** The guess is off by one at most, in either direction. -/
theorem yearOfDay_spec (n : Int) :
    daysBeforeYear (yearOfDay n) ≤ n ∧ n < daysBeforeYear (yearOfDay n + 1) := by
  have hguess : daysBeforeYear (400 * n / 146097) ≤ n ∧
      n < daysBeforeYear (400 * n / 146097 + 1 + 1 + 1) := by
    simp only [daysBeforeYear]
    omega
  simp only [yearOfDay]
  split
  case isTrue h =>
    rw [Int.add_sub_cancel]
    exact ⟨hguess.1, h⟩
  case isFalse h =>
    split
    case isTrue h' => exact ⟨h', hguess.2⟩
    case isFalse h' => exact ⟨Int.not_lt.1 h, Int.not_le.1 h'⟩

/-- A year is as long as its twelve months. -/
lemma daysBeforeYear_succ (year : Int) :
    daysBeforeYear (year + 1) = daysBeforeYear year + daysBeforeMonth year 13 := by
  have hlength : daysBeforeMonth year 13 = if isLeapYear year then 366 else 365 := by
    unfold daysBeforeMonth monthLengths
    split <;> rfl
  rw [hlength]
  unfold daysBeforeYear isLeapYear
  simp only [Bool.and_eq_true, Bool.or_eq_true, beq_iff_eq, bne_iff_ne, ne_eq]
  split
  all_goals omega

/-! ### Months -/

/-- A day of a year lies in one of its months.

**Proof sketch.** By induction on the months that are left: the day lies in the first of them or
that many days later in one of the others. -/
lemma monthAndDay_spec (month : Nat) (lengths : List Nat) {n : Nat}
    (h : n < lengths.foldl (· + ·) 0) :
    ∃ (i : Nat) (length : Nat), lengths[i]? = some length ∧
      (monthAndDay month lengths n).1 = month + i ∧
      1 ≤ (monthAndDay month lengths n).2 ∧ (monthAndDay month lengths n).2 ≤ length ∧
      (lengths.take i).foldl (· + ·) 0 + (monthAndDay month lengths n).2 = n + 1 := by
  induction lengths generalizing month n with
  | nil => cases h
  | cons length lengths ih =>
    rw [monthAndDay]
    split
    case isTrue hlt => exact ⟨0, length, rfl, rfl, by simp, hlt, by simp⟩
    case isFalse hge =>
      rw [← List.sum_eq_foldl, List.sum_cons, List.sum_eq_foldl] at h
      have hrest : n - length < lengths.foldl (· + ·) 0 := by omega
      obtain ⟨i, found, hfound, hmonth, hpos, hle, hcount⟩ := ih (month + 1) hrest
      refine ⟨i + 1, found, hfound, by omega, hpos, hle, ?_⟩
      rw [List.take_succ_cons, ← List.sum_eq_foldl, List.sum_cons, List.sum_eq_foldl]
      omega

/-! ### Dates -/

/-- A date has one of twelve months and one of at most thirty-one days.

**Proof sketch.** The length of a month is that of the table, which has twelve entries of at most
thirty-one days, and no day fits in a month behind them. -/
lemma le_of_isValid {d : Date} (h : d.isValid) : d.month ≤ 12 ∧ d.day ≤ 31 := by
  have hlengths : ∀ length ∈ monthLengths d.year, length ≤ 31 := by
    unfold monthLengths
    split <;> decide
  rw [isValid, Bool.and_eq_true, decide_eq_true_eq, decide_eq_true_eq] at h
  obtain ⟨hpos, hle⟩ := h
  unfold monthLength at hle
  split at hle
  case isTrue => omega
  case isFalse =>
    rw [List.getD_eq_getElem?_getD] at hle
    cases hfound : (monthLengths d.year)[d.month - 1]? with
    | none =>
      rw [hfound] at hle
      simp only [Option.getD_none] at hle
      omega
    | some length =>
      rw [hfound] at hle
      obtain ⟨hplace, -⟩ := List.getElem?_eq_some_iff.1 hfound
      have hmonths : (monthLengths d.year).length = 12 := rfl
      have hlength := hlengths length (List.mem_of_getElem? hfound)
      simp only [Option.getD_some] at hle
      omega

/-- The date of a day, and how the day is counted from it.

**Proof sketch.** The year is the last one that starts no later than the day, so the day lies within
its days. Among these it is found by going through the months, and the days before the month are
counted on the way. -/
lemma ofDayNumber_spec (n : Int) :
    (ofDayNumber n).isValid ∧ (ofDayNumber n).dayNumber = n := by
  obtain ⟨hstart, hstop⟩ := yearOfDay_spec (n + epochOffset)
  rw [daysBeforeYear_succ] at hstop
  obtain ⟨year, hyear⟩ : ∃ year, yearOfDay (n + epochOffset) = year := ⟨_, rfl⟩
  rw [hyear] at hstart hstop
  have hday : (n + epochOffset - daysBeforeYear year).toNat < daysBeforeMonth year 13 := by omega
  obtain ⟨i, length, hlength, hmonth, hpos, hle, hcount⟩ :=
    monthAndDay_spec 1 (monthLengths year) hday
  have hdate : ofDayNumber n = ⟨year, 1 + i,
      (monthAndDay 1 (monthLengths year) (n + epochOffset - daysBeforeYear year).toNat).2⟩ := by
    rw [← hmonth, ← hyear]
    rfl
  have hbefore : 1 + i - 1 = i := Nat.add_sub_cancel_left 1 i
  rw [hdate]
  constructor
  · simp only [isValid, monthLength, Bool.and_eq_true, decide_eq_true_eq, hbefore]
    rw [if_neg (by omega), List.getD_eq_getElem?_getD, hlength]
    exact ⟨hpos, hle⟩
  · simp only [dayNumber, daysBeforeMonth, hbefore]
    omega

/-- The date of a day is a day of one of the twelve months. -/
theorem isValid_ofDayNumber (n : Int) : (ofDayNumber n).isValid :=
  (ofDayNumber_spec n).1

/-- The day of the date of a day is that day. -/
theorem dayNumber_ofDayNumber (n : Int) : (ofDayNumber n).dayNumber = n :=
  (ofDayNumber_spec n).2

end Cohort.Date
