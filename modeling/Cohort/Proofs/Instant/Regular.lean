import Mathlib.Data.Option.Basic
import Mathlib.Tactic.Lemma
import Cohort.Instant.Reading
import Cohort.Proofs.Instant.Calendar
set_option relaxedAutoImplicit false
set_option autoImplicit false

/-!
# Regular instants

A leap second is written as second 60 of its minute, so it is found again if it is the last one of
its minute. Every instant that is made from a date and a time of day is regular in this sense, and
stays so when it is moved.

## Main definitions

* `Cohort.Instant.localTime` — the date and the time of day of an instant.
* `Cohort.Instant.Regular` — an instant that is no leap second within a minute.

## Main results

* `Cohort.Instant.toInstant?_localTime` — a regular instant is that of its date and time of day.
* `Cohort.Instant.LocalTime.regular_of_toInstant?`, `Cohort.Instant.regular_of_ofDate?`,
  `Cohort.Instant.regular_of_addMillis?` — where regular instants come from.
-/

namespace Cohort.Instant

/-! ### Local times -/

/-- The date and the time of day that are written for an instant. -/
def localTime (t : Instant) : LocalTime where
  date := t.date
  hour := t.secondOfDay.toNat / 3600
  minute := t.secondOfDay.toNat / 60 % 60
  second := t.secondOfDay.toNat % 60 + if t.isLeapSecond then 1 else 0
  nanos := t.nanos % nanosPerSecond
  offset := 0

/-- An instant that is no leap second, or else the last second of a minute. -/
def Regular (t : Instant) : Prop :=
  t.isLeapSecond = true → t.secondOfDay % 60 = 59

/-- A day has so many seconds. -/
lemma secondOfDay_range (t : Instant) : 0 ≤ t.secondOfDay ∧ t.secondOfDay < 86400 :=
  ⟨Int.emod_nonneg _ (by decide), Int.emod_lt_of_pos _ (by decide)⟩

/-- A leap second has more nanoseconds than another second. -/
lemma isLeapSecond_iff {t : Instant} : t.isLeapSecond = true ↔ nanosPerSecond ≤ t.nanos :=
  decide_eq_true_iff

/-- The parts of an instant, if they are those of one. -/
lemma ofParts?_eq_some {seconds : Int} {nanos : Nat} {t : Instant} :
    ofParts? seconds nanos = some t ↔ t.seconds = seconds ∧ t.nanos = nanos := by
  unfold ofParts?
  split
  case isTrue =>
    cases t
    simp [eq_comm]
  case isFalse h =>
    constructor
    · intro heq
      cases heq
    · rintro ⟨rfl, rfl⟩
      exact absurd ⟨t.seconds_range, t.nanos_lt⟩ h

/-- The start of the day of an instant.

**Proof sketch.** Midnight is the second of the day's number times the seconds of a day, which is
not before the first instant since that is a midnight. -/
lemma ofDate?_date (t : Instant) :
    ∃ midnight, ofDate? t.date = some midnight ∧ midnight.seconds + t.secondOfDay = t.seconds := by
  have hvalid : t.date.isValid = true := Date.isValid_ofDayNumber _
  have hday : t.date.dayNumber = t.dayNumber := Date.dayNumber_ofDayNumber _
  have hsplit : t.dayNumber * secondsPerDay + t.secondOfDay = t.seconds :=
    Int.mul_comm .. ▸ Int.mul_ediv_add_emod t.seconds secondsPerDay
  have hrange := t.seconds_range
  have hsecond := t.secondOfDay_range
  simp only [minSeconds, maxSeconds] at hrange
  have hmidnight : minSeconds ≤ t.dayNumber * secondsPerDay ∧
      t.dayNumber * secondsPerDay ≤ maxSeconds := by
    simp only [minSeconds, maxSeconds, dayNumber, secondsPerDay] at *
    omega
  refine ⟨⟨t.dayNumber * secondsPerDay, 0, hmidnight, zero_lt_nanos⟩, ?_, hsplit⟩
  rw [ofDate?, if_pos hvalid, hday]
  exact ofParts?_eq_some.2 ⟨rfl, rfl⟩

/-- The time of day that is written is one. -/
lemma localTime_range (t : Instant) :
    t.localTime.hour ≤ 23 ∧ t.localTime.minute ≤ 59 ∧ t.localTime.second ≤ 60 := by
  have hsecond := t.secondOfDay_range
  refine ⟨?_, ?_, ?_⟩
  · simp only [localTime]
    omega
  · simp only [localTime]
    omega
  · simp only [localTime]
    split <;> omega

/-- A regular instant has second 60 just in a leap second. -/
lemma localTime_second {t : Instant} (h : t.Regular) :
    t.localTime.second = 60 ↔ t.isLeapSecond = true := by
  have hrange := t.secondOfDay_range
  cases hleap : t.isLeapSecond with
  | true =>
    have hlast := h hleap
    simp only [localTime, hleap, if_true, iff_true]
    omega
  | false =>
    simp only [localTime, hleap, Bool.false_eq_true, if_false, iff_false]
    omega

/-- The nanoseconds of an instant are those of its fraction, and a second more in a leap second. -/
lemma localTime_nanos (t : Instant) :
    t.nanos = t.localTime.nanos + (if t.isLeapSecond then 1 else 0) * nanosPerSecond := by
  have hlimit : t.nanos < 2000000000 := t.nanos_lt
  have hiff : t.isLeapSecond = true ↔ 1000000000 ≤ t.nanos := isLeapSecond_iff
  simp only [localTime, nanosPerSecond]
  split
  case isTrue h =>
    have := hiff.1 h
    omega
  case isFalse h =>
    have := mt hiff.2 h
    omega

/-- A regular instant is that of its date and time of day.

**Proof sketch.** The date gives midnight, and hour, minute and second the seconds since then. A
leap second is written as the second sixty, which a regular instant has only at the end of a
minute. -/
theorem toInstant?_localTime {t : Instant} (h : t.Regular) :
    t.localTime.toInstant? = some t := by
  obtain ⟨midnight, hmidnight, hseconds⟩ := t.ofDate?_date
  obtain ⟨hlow, hhigh⟩ := t.secondOfDay_range
  obtain ⟨hhour, hminute, hsecond⟩ := t.localTime_range
  have hdate : t.localTime.date = t.date := rfl
  have hguard : (decide (t.localTime.hour ≤ 23) && decide (t.localTime.minute ≤ 59) &&
      decide (t.localTime.second ≤ 60) &&
      decide (t.localTime.offset.natAbs < secondsPerDay)) = true := by
    have hoffset : t.localTime.offset.natAbs < secondsPerDay :=
      (by decide : (0 : Int).natAbs < secondsPerDay)
    simp only [hhour, hminute, hsecond, hoffset, decide_true, Bool.and_true]
  rw [LocalTime.toInstant?, hdate, hmidnight, guard, if_pos hguard]
  simp only [Option.bind_eq_bind, Option.bind_some, Option.pure_def, localTime_second h]
  refine ofParts?_eq_some.2 ⟨?_, t.localTime_nanos⟩
  have hminutes : t.localTime.second - (if t.isLeapSecond = true then 1 else 0) =
      t.secondOfDay.toNat % 60 := Nat.add_sub_cancel ..
  have hday : 3600 * t.localTime.hour + 60 * t.localTime.minute + t.secondOfDay.toNat % 60 =
      t.secondOfDay.toNat := by
    simp only [localTime]
    omega
  have hoffset : t.localTime.offset = 0 := rfl
  rw [hminutes, hday, hoffset]
  omega

/-- The parts of a date and a time of day have two digits, apart from the year. -/
lemma localTime_lt (t : Instant) : t.localTime.date.month < 100 ∧ t.localTime.date.day < 100 ∧
    t.localTime.hour < 100 ∧ t.localTime.minute < 100 ∧ t.localTime.second < 100 := by
  obtain ⟨hhour, hminute, hsecond⟩ := t.localTime_range
  obtain ⟨hmonth, hday⟩ := Date.le_of_isValid (Date.isValid_ofDayNumber t.dayNumber)
  have hdate : t.localTime.date = Date.ofDayNumber t.dayNumber := rfl
  rw [hdate]
  omega

/-! ### Where regular instants come from -/

/-- An instant that is no leap second is regular. -/
lemma regular_of_nanos_lt {t : Instant} (h : t.nanos < nanosPerSecond) : t.Regular := fun hleap =>
  absurd (isLeapSecond_iff.1 hleap) (Nat.not_le.2 h)

/-- The instant of a local time is regular if its zone is ahead by whole minutes.

**Proof sketch.** The second sixty is the only one with a leap second, and it is the last one of its
minute, also in the other zone. -/
lemma LocalTime.regular_of_toInstant? {l : LocalTime} {t : Instant} (h : l.toInstant? = some t)
    (hnanos : l.nanos < nanosPerSecond) (hoffset : l.offset % 60 = 0) : t.Regular := by
  simp only [toInstant?, ofDate?, Option.bind_eq_bind, Option.bind_eq_some_iff] at h
  obtain ⟨midnight, hmidnight, -, -, hparts⟩ := h
  split at hmidnight
  case isFalse => cases hmidnight
  case isTrue =>
    obtain ⟨hstart, -⟩ := ofParts?_eq_some.1 hmidnight
    obtain ⟨hseconds, hleap⟩ := ofParts?_eq_some.1 hparts
    by_cases hsixty : l.second = 60
    · intro _
      rw [hsixty, if_pos rfl, hstart] at hseconds
      have hday : t.secondOfDay % 60 = t.seconds % 60 := Int.emod_emod_of_dvd _ (by decide)
      have hwhole : ((secondsPerDay : Nat) : Int) = 86400 := rfl
      rw [hday, hseconds, hwhole]
      omega
    · rw [if_neg hsixty, Nat.zero_mul, Nat.add_zero] at hleap
      exact regular_of_nanos_lt (hleap ▸ hnanos)

/-- The start of a date is no leap second. -/
lemma regular_of_ofDate? {d : Date} {t : Instant} (h : ofDate? d = some t) : t.Regular := by
  unfold ofDate? at h
  split at h
  case isFalse => cases h
  case isTrue =>
    refine regular_of_nanos_lt ?_
    rw [(ofParts?_eq_some.1 h).2]
    decide

/-- Instants whose nanoseconds were brought into one second are no leap seconds. -/
lemma regular_of_normalized? {seconds nanos : Int} {t : Instant}
    (h : normalized? seconds nanos = some t) : t.Regular := by
  refine regular_of_nanos_lt ?_
  rw [(ofParts?_eq_some.1 h).2]
  have hbillion : ((nanosPerSecond : Nat) : Int) = 1000000000 := rfl
  rw [hbillion]
  change _ < 1000000000
  omega

/-- Regular instants are moved to regular ones. -/
theorem regular_of_addMillis? {t u : Instant} {millis : Int} (ht : t.Regular)
    (h : t.addMillis? millis = some u) : u.Regular := by
  simp only [addMillis?] at h
  split at h
  case isFalse => exact regular_of_normalized? h
  case isTrue hleap =>
    split at h
    case isTrue => exact regular_of_normalized? h
    case isFalse =>
      split at h
      case isTrue => exact regular_of_normalized? h
      case isFalse =>
        intro _
        rw [secondOfDay, (ofParts?_eq_some.1 h).1]
        exact ht hleap

end Cohort.Instant
