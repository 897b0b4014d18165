import Mathlib.Order.Lattice
import Cohort.Proofs.Instant.Shift
import Cohort.Timeframe
set_option relaxedAutoImplicit false
set_option autoImplicit false

/-!
# The start of a relative window

A relative window starts so many units before the present: seconds are counted in the time that has
passed, months in the calendar. If that is before the earliest instant, the window starts with the
earliest instant, and so it does if the count of months does not fit a word.

## Main definitions

* `Cohort.Timeframe.Leaves` — so many units before a present there are no instants.
* `Cohort.Timeframe.LiesBack` — an instant that lies so many units before a present.
* `Cohort.Timeframe.stepBack?` — the start of a window, worked out in words.

## Main results

* `Cohort.Timeframe.goBack_of_leaves`, `Cohort.Timeframe.liesBack_goBack` — where a window starts.
* `Cohort.Timeframe.goBack_anti` — more units before the same present are not later.
* `Cohort.Timeframe.stepBack?_eq` — no step goes wrong.
* `Cohort.Timeframe.relative_nested` — windows of one unit at one present. -/

namespace Cohort

/-! ### Units -/

/-- A unit of seconds has at least one and no more than a week of them. -/
lemma TimeUnit.seconds_pos {unit : TimeUnit} {seconds : ℕ} (h : unit.length = .inl seconds) :
    0 < seconds ∧ seconds ≤ 604800 := by
  cases unit <;> cases h <;> decide

/-- A unit of months has at least one and no more than a year of them. -/
lemma TimeUnit.months_pos {unit : TimeUnit} {months : ℕ} (h : unit.length = .inr months) :
    0 < months ∧ months ≤ 12 := by
  cases unit <;> cases h <;> decide

namespace Timeframe

variable {now : Instant} {value v w : ℕ} {unit : TimeUnit} {seconds months : ℕ}

/-! ### Where a window starts -/

/-- So many units before a present there are no instants. -/
def Leaves (now : Instant) (value : ℕ) (unit : TimeUnit) : Prop :=
  match unit.length with
  | .inl seconds => now.elapsed - (value * seconds : ℕ) * 1000000000 < Instant.min.elapsed
  | .inr months => (now.date.subtractMonths (value * months)).year < Instant.min.date.year

/-- An instant lies so many units before a present: so much less time has passed, or it is the same
time of day on the date so many months earlier. -/
def LiesBack (start now : Instant) (value : ℕ) (unit : TimeUnit) : Prop :=
  match unit.length with
  | .inl seconds => start.elapsed = now.elapsed - (value * seconds : ℕ) * 1000000000
  | .inr months => start.date = now.date.subtractMonths (value * months) ∧
      start.timeOfDay = now.timeOfDay

/-- So many units of seconds lead out of the calendar if the time that has passed does not
suffice. -/
lemma leaves_of_seconds (h : unit.length = .inl seconds) : Leaves now value unit ↔
    now.elapsed - (value * seconds : ℕ) * 1000000000 < Instant.min.elapsed := by
  rw [Leaves, h]

/-- So many units of months lead out of the calendar if the year is before the first one. -/
lemma leaves_of_months (h : unit.length = .inr months) : Leaves now value unit ↔
    (now.date.subtractMonths (value * months)).year < Instant.min.date.year := by
  rw [Leaves, h]

/-- Units of seconds are gone back in milliseconds, up to the first instant. -/
lemma goBack_of_seconds (h : unit.length = .inl seconds) : goBack now value unit =
    (now.addMillis? (-(1000 * (value * seconds : ℕ) : ℤ))).getD Instant.min := by
  rw [goBack, h]

/-- Units of months are gone back by the calendar, up to the first instant. -/
lemma goBack_of_months (h : unit.length = .inr months) : goBack now value unit =
    (now.subtractMonths? (value * months)).getD Instant.min := by
  rw [goBack, h]

/-- No units before a present is the present. -/
lemma goBack_zero (now : Instant) (unit : TimeUnit) : goBack now 0 unit = now := by
  cases h : unit.length with
  | inl seconds =>
    rw [goBack_of_seconds h, Nat.zero_mul]
    exact congrArg (·.getD Instant.min) now.addMillis?_zero
  | inr months =>
    rw [goBack_of_months h, Nat.zero_mul, Instant.subtractMonths?_zero, Option.getD_some]

/-- If there are no instants so many units before a present, the window starts with the earliest
one. -/
theorem goBack_of_leaves (h : Leaves now value unit) : goBack now value unit = Instant.min := by
  cases hunit : unit.length with
  | inl seconds =>
    rw [leaves_of_seconds hunit] at h
    rw [goBack_of_seconds hunit, Instant.addMillis?_neg_eq_none h, Option.getD_none]
  | inr months =>
    rw [leaves_of_months hunit] at h
    rw [goBack_of_months hunit, Instant.subtractMonths?_eq_none h, Option.getD_none]

/-- Otherwise it starts so many units before the present. -/
theorem liesBack_goBack (h : ¬ Leaves now value unit) :
    LiesBack (goBack now value unit) now value unit := by
  cases hunit : unit.length with
  | inl seconds =>
    rw [leaves_of_seconds hunit, not_lt] at h
    obtain ⟨start, hstart, helapsed, -⟩ := Instant.exists_addMillis?_neg h
    rw [LiesBack, hunit, goBack_of_seconds hunit, hstart]
    exact helapsed
  | inr months =>
    rw [leaves_of_months hunit, not_lt] at h
    obtain ⟨start, hstart, hback⟩ := Instant.exists_subtractMonths? h
    rw [LiesBack, hunit, goBack_of_months hunit, hstart]
    exact hback

/-- A window does not start in a leap second, unless it is empty. -/
lemma isLeapSecond_goBack (hunit : unit.length = .inl seconds) (hvalue : 0 < value) :
    (goBack now value unit).isLeapSecond = false := by
  have hpos : 0 < value * seconds := Nat.mul_pos hvalue (TimeUnit.seconds_pos hunit).1
  by_cases h : Leaves now value unit
  · rw [goBack_of_leaves h]
    rfl
  · rw [leaves_of_seconds hunit, not_lt] at h
    obtain ⟨start, hstart, -, hleap⟩ := Instant.exists_addMillis?_neg h
    rw [goBack_of_seconds hunit, hstart]
    exact hleap hpos

/-- The time that has passed up to the start of a window. -/
lemma elapsed_goBack (hunit : unit.length = .inl seconds) : (goBack now value unit).elapsed =
    max Instant.min.elapsed (now.elapsed - (value * seconds : ℕ) * 1000000000) := by
  by_cases h : Leaves now value unit
  · rw [goBack_of_leaves h]
    rw [leaves_of_seconds hunit] at h
    exact (max_eq_left h.le).symm
  · have hback := liesBack_goBack h
    rw [LiesBack, hunit] at hback
    rw [leaves_of_seconds hunit, not_lt] at h
    rw [hback, max_eq_right h]

/-- The day and the time of day of the start of a window of months. -/
lemma goBack_day (hunit : unit.length = .inr months) (h : ¬ Leaves now value unit) :
    (goBack now value unit).dayNumber = (now.date.subtractMonths (value * months)).dayNumber ∧
      (goBack now value unit).timeOfDay = now.timeOfDay := by
  have hback := liesBack_goBack h
  rw [LiesBack, hunit] at hback
  rw [← Instant.dayNumber_date, hback.1]
  exact ⟨rfl, hback.2⟩

/-! ### More units -/

/-- More units before a present there are no instants either.

**Proof sketch.** By the length of the unit: more seconds or more months lead further back, and not
forward again over the earliest instant. -/
lemma Leaves.mono (h : Leaves now v unit) (hvw : v ≤ w) : Leaves now w unit := by
  cases hunit : unit.length with
  | inl seconds =>
    have hmul : v * seconds ≤ w * seconds := Nat.mul_le_mul_right seconds hvw
    rw [leaves_of_seconds hunit] at h ⊢
    omega
  | inr months =>
    have hvalid (n : ℕ) := (Date.subtractMonths_spec now.isValid_date n).1
    rw [leaves_of_months hunit, ← Instant.dayNumber_lt_min_iff (hvalid _)] at h ⊢
    exact (Date.dayNumber_subtractMonths_anti now.isValid_date
      (Nat.mul_le_mul_right months hvw)).trans_lt h

/-- More units before the same present are not later.

**Proof sketch.** By the length of the unit. Seconds are subtracted from what has elapsed, and only
for no units the start may be a leap second. For months the days are compared, and the time of day
stays. -/
theorem goBack_anti (now : Instant) (unit : TimeUnit) (hvw : v ≤ w) :
    (goBack now w unit).place ≤ (goBack now v unit).place := by
  by_cases hleaves : Leaves now w unit
  · rw [goBack_of_leaves hleaves]
    exact Instant.min_place_le _
  cases hunit : unit.length with
  | inl seconds =>
    obtain ⟨hpos, -⟩ := TimeUnit.seconds_pos hunit
    rcases Nat.eq_zero_or_pos v with rfl | hv
    · rcases Nat.eq_zero_or_pos w with rfl | hw
      · exact le_rfl
      · -- the present may be a leap second, but at least a second has passed since the start
        have hback := liesBack_goBack hleaves
        rw [LiesBack, hunit] at hback
        have hone : 1 ≤ w * seconds := Nat.mul_pos hw hpos
        rw [goBack_zero]
        exact (Instant.place_lt_of_elapsed_add_le (by omega)).le
    · rw [Instant.place_le_iff_elapsed_le (isLeapSecond_goBack hunit (hv.trans_le hvw))
        (isLeapSecond_goBack hunit hv), elapsed_goBack hunit, elapsed_goBack hunit]
      have hmul : v * seconds ≤ w * seconds := Nat.mul_le_mul_right seconds hvw
      omega
  | inr months =>
    obtain ⟨hday, htime⟩ := goBack_day hunit hleaves
    obtain ⟨hday', htime'⟩ := goBack_day hunit fun h => hleaves (h.mono hvw)
    refine Instant.place_le_of_timeOfDay_eq (htime.trans htime'.symm) ?_
    rw [hday, hday']
    exact Date.dayNumber_subtractMonths_anti now.isValid_date (Nat.mul_le_mul_right months hvw)

/-! ### Steps in words -/

/-- The product of two words of 32 bits, unless it is above the greatest word. -/
def product? (a b : UInt32) : Option UInt32 :=
  if a.toNat * b.toNat < UInt32.size then some (a * b) else none

/-- The start of a window, step by step. It goes wrong if the milliseconds do not fit a signed word.
It is the earliest instant if the months do not fit a word. -/
def stepBack? (now : Instant) (value : UInt32) (unit : TimeUnit) : Option Instant :=
  match unit.length with
  | .inl seconds =>
    (Instant.signedWord? (1000 * (value.toNat * seconds : ℕ))).map fun millis =>
      (now.addMillis? (-millis)).getD Instant.min
  | .inr months =>
    some (((product? value (.ofNat months)).bind fun n => now.subtractMonths? n.toNat).getD
      Instant.min)

/-- There are no instants so many months ago that their number does not fit a word.

**Proof sketch.** The present is before the year 262143, and so many months are more years than
there are between that year and the earliest one. -/
lemma year_subtractMonths_lt (now : Instant) {n : ℕ} (h : UInt32.size ≤ n) :
    (now.date.subtractMonths n).year < Instant.min.date.year := by
  have hlast : now.date.year < 262143 := by
    rw [← Date.dayNumber_lt_newYear_iff now.isValid_date, Instant.dayNumber_date]
    have hrange := now.seconds_range.2
    have hsecond := now.secondOfDay_range
    have hnew : Instant.maxSeconds + 1 = (⟨262143, 1, 1⟩ : Date).dayNumber * 86400 := by decide
    rw [Instant.seconds_eq] at hrange
    omega
  have hfirst : Instant.min.date.year = -262143 := by decide
  have hsize : UInt32.size = 4294967296 := rfl
  obtain ⟨hpos, hle, -, -⟩ := Date.range_of_isValid now.isValid_date
  rw [hfirst]
  simp only [Date.subtractMonths]
  omega

/-- No step goes wrong.

**Proof sketch.** A product with the length of a unit is far from the greatest word if the length is
in seconds. If it is in months it may be too great, and then it leads before the first year. -/
theorem stepBack?_eq (now : Instant) (value : UInt32) (unit : TimeUnit) :
    stepBack? now value unit = some (goBack now value.toNat unit) := by
  have hvalue : value.toNat < 4294967296 := value.toNat_lt
  cases hunit : unit.length with
  | inl seconds =>
    obtain ⟨-, hle⟩ := TimeUnit.seconds_pos hunit
    have hword : Instant.signedWord? (1000 * (value.toNat * seconds : ℕ)) =
        some (1000 * ((value.toNat * seconds : ℕ) : ℤ)) := by
      have hmul := Nat.mul_le_mul hvalue.le hle
      exact if_pos (by omega)
    rw [stepBack?, hunit, goBack_of_seconds hunit]
    simp only [hword, Option.map_some]
  | inr months =>
    obtain ⟨-, hle⟩ := TimeUnit.months_pos hunit
    have hmonths : (UInt32.ofNat months).toNat = months := by
      rw [UInt32.toNat_ofNat', Nat.mod_eq_of_lt (by omega)]
    rw [stepBack?, hunit]
    simp only [product?, hmonths]
    split
    case isTrue hword =>
      have hproduct : (value * UInt32.ofNat months).toNat = value.toNat * months := by
        rw [UInt32.toNat_mul, hmonths]
        exact Nat.mod_eq_of_lt hword
      rw [Option.bind_some, hproduct, goBack_of_months hunit]
    case isFalse hword =>
      have hleaves : Leaves now value.toNat unit :=
        (leaves_of_months hunit).2 (year_subtractMonths_lt now (not_lt.1 hword))
      rw [Option.bind_none, Option.getD_none, goBack_of_leaves hleaves]

/-! ### Windows of one unit -/

/-- A window of so many units lies in one of more units that is resolved at the same present, and
this one in that of all time. It does not start behind the present. It starts so many units before
the present, unless there are no instants there; then it starts with the earliest instant. No step
goes wrong, and a product of months that does not fit a word leads to the earliest instant as
well.

**Proof sketch.** The starts are ordered by `goBack_anti`, and zero units lead to the present
itself. Where the start lies is said by the lemmas about going back, and the steps in words are the
same going back (`stepBack?_eq`). -/
theorem relative_nested (now : Instant) (unit : TimeUnit) {v w : UInt32} (hvw : v ≤ w) :
    let window (value : UInt32) := (relative value.toNat unit).window now
    (∀ t, (window v).contains t = true → (window w).contains t = true) ∧
      (∀ t, (window w).contains t = true → (allTime.window now).contains t = true) ∧
      (window w).start.place ≤ now.place ∧
      (Leaves now w.toNat unit → (window w).start = Instant.min) ∧
      (¬ Leaves now w.toNat unit → LiesBack (window w).start now w.toNat unit) ∧
      stepBack? now w unit = some (window w).start ∧
      ∀ months, unit.length = .inr months → product? w (.ofNat months) = none →
        (window w).start = Instant.min := by
  intro window
  have hstart {a b : UInt32} (hab : a ≤ b) : (window b).start.place ≤ (window a).start.place :=
    goBack_anti now unit (UInt32.le_iff_toNat_le.1 hab)
  have hnow : (window 0).start = now := goBack_zero now unit
  refine ⟨?_, ?_, ?_, goBack_of_leaves, liesBack_goBack, stepBack?_eq now w unit, ?_⟩
  · intro t ht
    rw [Window.contains_iff] at ht ⊢
    exact ⟨(hstart hvw).trans ht.1, ht.2⟩
  · intro t ht
    rw [Window.contains_iff] at ht ⊢
    exact ⟨t.min_place_le, ht.2⟩
  · rw [← hnow]
    exact hstart (UInt32.zero_le)
  · intro months hunit hproduct
    have hstep := stepBack?_eq now w unit
    rw [stepBack?, hunit] at hstep
    simp only [hproduct, Option.bind_none, Option.getD_none] at hstep
    exact (Option.some.inj hstep).symm

/-- At noon on 31 March 2024 a window of one month starts on the last day of February, and lies in
one of thirteen months, which starts in a shorter February. One of the greatest number of years
starts with the earliest instant. -/
theorem march_nested :
    let now : Instant := ⟨1711886400, 0, by decide, by decide⟩
    let window (value : UInt32) := (relative value.toNat .months).window now
    (1 : UInt32) ≤ 13 ∧
      (∀ t, (window 1).contains t = true → (window 13).contains t = true) ∧
      (window 1).start = ⟨1709208000, 0, by decide, by decide⟩ ∧
      (window 13).start = ⟨1677585600, 0, by decide, by decide⟩ ∧
      ¬ Leaves now 13 .months ∧ LiesBack (window 13).start now 13 .months ∧
      product? 0xFFFFFFFF 12 = none ∧
      ((relative 0xFFFFFFFF .years).window now).start = Instant.min := by
  intro now window
  have hstays : ¬ Leaves now 13 .months := by
    rw [leaves_of_months rfl]
    decide
  have hproduct : product? 0xFFFFFFFF 12 = none := by decide
  obtain ⟨hnested, -, -, -, hback, -, -⟩ :=
    relative_nested now .months (show (1 : UInt32) ≤ 13 by decide)
  obtain ⟨-, -, -, -, -, -, hoverflow⟩ :=
    relative_nested now .years (UInt32.le_refl 0xFFFFFFFF)
  exact ⟨by decide, hnested, by decide +kernel, by decide +kernel, hstays, hback hstays, hproduct,
    hoverflow 12 rfl hproduct⟩

end Timeframe

end Cohort
