import Cohort.Proofs.Timeframe.Start
set_option relaxedAutoImplicit false
set_option autoImplicit false

/-!
# Windows at a later present

A relative window moves on with the present, and what has left it comes before its start. It comes
back only if the start slips back while the present goes on. This happens in two ways. Days that an
earlier month does not have are replaced by its last day, and the time of day is kept: at noon on 30
March a window of one month starts at noon on the last day of February, and at ten on 31 March it
starts at ten on the same day. And a leap second counts with the second behind it, so in that second
less time has passed than towards the end of the leap second.

## Main definitions

* `Cohort.Timeframe.Clipped` — two presents whose windows start on the same last day of a month, the
  later one at an earlier time of day.
* `Cohort.Timeframe.Prolonged` — a leap second and an instant of the second behind it up to which
  less time has passed.
* `Cohort.Timeframe.SlipsBack` — when the start of a window slips back.

## Main results

* `Cohort.Timeframe.goBack_lt_iff` — the start of a window slips back in these cases only.
* `Cohort.Timeframe.outside_stays_iff` — what has left a window stays outside but in these cases. -/

namespace Cohort.Timeframe

variable {now now' : Instant} {value : ℕ} {unit : TimeUnit} {seconds months : ℕ}

/-- Two presents are on different days of one month, the later one at an earlier time of day, and so
many months earlier the month has neither day, or the first of them is its last. -/
structure Clipped (now now' : Instant) (months : ℕ) : Prop where
  /-- They are in the same month. -/
  sameMonth : now.date.monthIndex = now'.date.monthIndex
  /-- The second one is on a later day. -/
  laterDay : now.date.day < now'.date.day
  /-- It is at an earlier time of day. -/
  earlierTime : now'.timeOfDay < now.timeOfDay
  /-- So many months earlier the month does not go beyond the first day. -/
  short : Date.monthSize (now.date.monthIndex - months) ≤ now.date.day

/-- A present is in a leap second, another one in the second behind it, and less time has passed up
to the second one. -/
structure Prolonged (now now' : Instant) : Prop where
  /-- The first present is in a leap second. -/
  leap : now.isLeapSecond = true
  /-- The second one is in the next second. -/
  next : now'.seconds = now.seconds + 1
  /-- It is less far in this second. -/
  less : now'.elapsed < now.elapsed

/-- The start of a window slips back from one present to a later one. -/
def SlipsBack (now now' : Instant) (value : ℕ) (unit : TimeUnit) : Prop :=
  ¬ Leaves now value unit ∧
    match unit.length with
    | .inl _ => 0 < value ∧ Prolonged now now'
    | .inr months => Clipped now now' (value * months)

/-! ### Seconds -/

/-- Up to a later present less time has passed only if the first one is in a leap second.

**Proof sketch.** A place is a second and a fraction in it, which is less than two seconds. So less
time has passed at a later place only if the first fraction is more than a second. -/
lemma elapsed_lt_iff (h : now.place ≤ now'.place) :
    now'.elapsed < now.elapsed ↔ Prolonged now now' := by
  refine ⟨fun hless => ?_, fun hprolonged => hprolonged.less⟩
  have hlimit : now.nanos < 2000000000 := now.nanos_lt
  rw [Instant.place_le_iff] at h
  have hpassed := hless
  rw [Instant.elapsed_eq, Instant.elapsed_eq] at hpassed
  refine ⟨?_, by omega, hless⟩
  rw [← Bool.not_eq_false, Instant.isLeapSecond_eq_false]
  omega

/-- In a leap second no window starts with the earliest instant just so many seconds before. -/
lemma Prolonged.min_elapsed_ne (h : Prolonged now now') (n : ℕ) :
    Instant.min.elapsed ≠ now.elapsed - n * 1000000000 := by
  have hmin := Instant.elapsed_min
  have hlimit : now.nanos < 2000000000 := now.nanos_lt
  have hless := h.less
  have hnext := h.next
  rw [Instant.elapsed_eq, Instant.elapsed_eq] at hless
  rw [hmin, Instant.elapsed_eq]
  omega

/-- The start of a window of seconds slips back behind a leap second only. -/
lemma goBack_lt_iff_of_seconds (hunit : unit.length = .inl seconds) (h : now.place ≤ now'.place) :
    (goBack now' value unit).place < (goBack now value unit).place ↔
      ¬ Leaves now value unit ∧ 0 < value ∧ Prolonged now now' := by
  rcases Nat.eq_zero_or_pos value with rfl | hvalue
  · rw [goBack_zero, goBack_zero]
    simp only [h.not_gt, lt_irrefl, false_and, and_false]
  · rw [← not_le, Instant.place_le_iff_elapsed_le (isLeapSecond_goBack hunit hvalue)
      (isLeapSecond_goBack hunit hvalue), elapsed_goBack hunit, elapsed_goBack hunit, not_le,
      leaves_of_seconds hunit, ← elapsed_lt_iff h]
    constructor
    · intro hlt
      omega
    · rintro ⟨hstays, -, hless⟩
      have hne := ((elapsed_lt_iff h).1 hless).min_elapsed_ne (value * seconds)
      omega

/-! ### Months -/

/-- At a later present a window of months does not start on an earlier day. -/
lemma dayNumber_goBack_le (h : now.place ≤ now'.place) (n : ℕ) :
    (now.date.subtractMonths n).dayNumber ≤ (now'.date.subtractMonths n).dayNumber := by
  refine Date.dayNumber_subtractMonths_le now.isValid_date now'.isValid_date n ?_
  rw [Instant.dayNumber_date, Instant.dayNumber_date, ← not_lt]
  exact fun hlt => h.not_gt (Instant.place_lt_iff_day.2 (.inl hlt))

/-- A window of months starts on the same day, but earlier, if and only if the day is clipped.

**Proof sketch.** If the starts are on the same day but the later present is at an earlier time, the
presents are on different days. Two days of one month go back to the same day if the month there is
too short for both, and days of different months never do. -/
lemma clipped_iff (h : now.place ≤ now'.place) (n : ℕ) :
    (now'.date.subtractMonths n).dayNumber = (now.date.subtractMonths n).dayNumber ∧
      now'.timeOfDay < now.timeOfDay ↔ Clipped now now' n := by
  have hvalid := now.isValid_date
  have hvalid' := now'.isValid_date
  constructor
  · rintro ⟨hsame, htime⟩
    have hlt : now.date.dayNumber < now'.date.dayNumber := by
      have hnot := h.not_gt
      rw [Instant.place_lt_iff_day, not_or] at hnot
      have hne : now'.dayNumber ≠ now.dayNumber := fun heq => hnot.2 ⟨heq, htime⟩
      rw [Instant.dayNumber_date, Instant.dayNumber_date]
      omega
    obtain ⟨hmonth, hshort⟩ :=
      (Date.dayNumber_subtractMonths_eq_iff hvalid hvalid' n hlt).1 hsame.symm
    refine ⟨hmonth, ?_, htime, hshort⟩
    rw [Date.dayNumber_eq hvalid, Date.dayNumber_eq hvalid', hmonth] at hlt
    omega
  · rintro ⟨hmonth, hday, htime, hshort⟩
    have hlt : now.date.dayNumber < now'.date.dayNumber := by
      rw [Date.dayNumber_eq hvalid, Date.dayNumber_eq hvalid', hmonth]
      omega
    exact ⟨((Date.dayNumber_subtractMonths_eq_iff hvalid hvalid' n hlt).2 ⟨hmonth, hshort⟩).symm,
      htime⟩

/-- The start of a window of months slips back on a clipped day only.

**Proof sketch.** A window that leaves the calendar starts with the earliest instant, before
anything else. Otherwise the start has the day that was gone back to and the time of the present,
and the days do not go backwards. -/
lemma goBack_lt_iff_of_months (hunit : unit.length = .inr months) (h : now.place ≤ now'.place) :
    (goBack now' value unit).place < (goBack now value unit).place ↔
      ¬ Leaves now value unit ∧ Clipped now now' (value * months) := by
  by_cases hleaves : Leaves now value unit
  · rw [goBack_of_leaves hleaves]
    simp only [hleaves, (Instant.min_place_le _).not_gt, not_true_eq_false, false_and]
  · have hdays := dayNumber_goBack_le h (value * months)
    have hleaves' : ¬ Leaves now' value unit := by
      have hvalid := (Date.subtractMonths_spec now.isValid_date (value * months)).1
      have hvalid' := (Date.subtractMonths_spec now'.isValid_date (value * months)).1
      rw [leaves_of_months hunit, ← Instant.dayNumber_lt_min_iff hvalid, not_lt] at hleaves
      rw [leaves_of_months hunit, ← Instant.dayNumber_lt_min_iff hvalid', not_lt]
      exact hleaves.trans hdays
    obtain ⟨hday, htime⟩ := goBack_day hunit hleaves
    obtain ⟨hday', htime'⟩ := goBack_day hunit hleaves'
    rw [Instant.place_lt_iff_day, hday, hday', htime, htime', ← clipped_iff h]
    simp only [hdays.not_gt, false_or, hleaves, not_false_eq_true, true_and]

/-! ### Windows -/

/-- From one present to a later one the start of a window slips back in these cases only. -/
theorem goBack_lt_iff (h : now.place ≤ now'.place) (value : ℕ) (unit : TimeUnit) :
    (goBack now' value unit).place < (goBack now value unit).place ↔
      SlipsBack now now' value unit := by
  cases hunit : unit.length with
  | inl seconds =>
    rw [SlipsBack, hunit]
    exact goBack_lt_iff_of_seconds hunit h
  | inr months =>
    rw [SlipsBack, hunit]
    exact goBack_lt_iff_of_months hunit h

/-- Let one present not come after another. A relative window does not start earlier at the second
one unless its start slips back, on a clipped day or behind a leap second. So what comes before the
first present and is outside the window is outside at the second present as well; only if the start
slips back, and no further than to it, is it inside again.

**Proof sketch.** Being outside before the present means being before the start. So something is
inside later only if the start has slipped back behind it. -/
theorem outside_stays_iff (h : now.place ≤ now'.place) (value : ℕ) (unit : TimeUnit) :
    let window (now : Instant) := (relative value unit).window now
    ((window now').start.place < (window now).start.place ↔ SlipsBack now now' value unit) ∧
      ∀ t, t.place < now.place → (window now).contains t = false →
        ((window now').contains t = true ↔
          SlipsBack now now' value unit ∧ (window now').start.place ≤ t.place) := by
  intro window
  have hslips : (window now').start.place < (window now).start.place ↔
      SlipsBack now now' value unit := goBack_lt_iff h value unit
  refine ⟨hslips, fun t ht hout => ?_⟩
  rw [← Bool.not_eq_true, Window.contains_iff] at hout
  have hbefore : t.place < (window now).start.place := not_le.1 fun hle => hout ⟨hle, ht⟩
  rw [Window.contains_iff, ← hslips]
  constructor
  · rintro ⟨hstart, -⟩
    exact ⟨hstart.trans_lt hbefore, hstart⟩
  · rintro ⟨-, hstart⟩
    exact ⟨hstart, ht.trans_le h⟩

/-- At ten on 30 March 2023 and at noon on 31 March a window of one month starts on 28 February, at
ten and at noon. A visit at nine has left it and stays outside. -/
theorem visit_stays :
    let morning : Instant := ⟨1680170400, 0, by decide, by decide⟩
    let noon : Instant := ⟨1680264000, 0, by decide, by decide⟩
    let visit : Instant := ⟨1677574800, 0, by decide, by decide⟩
    let window (now : Instant) := (relative 1 .months).window now
    morning.place ≤ noon.place ∧ visit.place < morning.place ∧
      (window morning).contains visit = false ∧ ¬ SlipsBack morning noon 1 .months ∧
      (window noon).contains visit = false := by
  intro morning noon visit window
  have horder : morning.place ≤ noon.place := by decide
  have hvisit : visit.place < morning.place := by decide
  have hout : (window morning).contains visit = false := by decide +kernel
  have hslips : ¬ SlipsBack morning noon 1 .months := by
    rintro ⟨-, hclipped⟩
    exact absurd hclipped.earlierTime (by decide)
  have hstays := (outside_stays_iff horder 1 .months).2 visit hvisit hout
  refine ⟨horder, hvisit, hout, hslips, ?_⟩
  rw [← Bool.not_eq_true]
  exact fun hin => hslips (hstays.1 hin).1

/-- At noon on 30 March 2023 a visit at eleven on 28 February has left a window of one month, but at
ten on 31 March it is inside again. In the same way a window of one minute starts earlier a quarter
of a second after the leap second of 2016 than at its third quarter. -/
theorem visit_returns :
    let noon : Instant := ⟨1680177600, 0, by decide, by decide⟩
    let morning : Instant := ⟨1680256800, 0, by decide, by decide⟩
    let visit : Instant := ⟨1677582000, 0, by decide, by decide⟩
    let window (now : Instant) := (relative 1 .months).window now
    let leap : Instant := ⟨1483228799, 1750000000, by decide, by decide⟩
    let behind : Instant := ⟨1483228800, 250000000, by decide, by decide⟩
    let before : Instant := ⟨1483228740, 500000000, by decide, by decide⟩
    let minute (now : Instant) := (relative 1 .minutes).window now
    (noon.place ≤ morning.place ∧ visit.place < noon.place ∧
        (window morning).start.place < (window noon).start.place ∧
        (window noon).contains visit = false ∧ (window morning).contains visit = true) ∧
      leap.place ≤ behind.place ∧ before.place < leap.place ∧
        (minute behind).start.place < (minute leap).start.place ∧
        (minute leap).contains before = false ∧ (minute behind).contains before = true := by
  decide +kernel

end Cohort.Timeframe
