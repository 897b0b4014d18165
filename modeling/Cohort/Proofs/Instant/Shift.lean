import Cohort.Proofs.Instant.Months
import Cohort.Proofs.Instant.Order
import Cohort.Proofs.Instant.Regular
set_option relaxedAutoImplicit false
set_option autoImplicit false

/-!
# Earlier instants

An instant is moved by seconds or by months. Seconds are counted in the time that has passed since
the start of 1970. A leap second takes none of it and counts with the second behind it; so in a leap
second the order of instants is not that of the time that has passed. Months are counted in the
calendar, and the time of day is kept. Instants that would lie before the first year are none. The
milliseconds between two instants fit a signed word, and by more than fit one no instant is moved.

## Main definitions

* `Cohort.Instant.elapsed` — the time that has passed.
* `Cohort.Instant.timeOfDay` — the time of day.
* `Cohort.Instant.signedWord?` — the numbers of a signed word.

## Main results

* `Cohort.Instant.place_le_iff_elapsed_le` — the order of instants that are no leap seconds.
* `Cohort.Instant.place_lt_iff_day` — the order of instants by days.
* `Cohort.Instant.exists_addMillis?_neg`, `Cohort.Instant.addMillis?_neg_eq_none` — whole seconds
  earlier.
* `Cohort.Instant.exists_subtractMonths?`, `Cohort.Instant.subtractMonths?_eq_none` — months
  earlier.
* `Cohort.Instant.addMillis?_eq_none_of_le`, `Cohort.Instant.signedWord?_millisSince` — milliseconds
  in words. -/

namespace Cohort.Instant

variable {a b t : Instant} {n : ℤ}

/-! ### The time that has passed -/

/-- The nanoseconds that have passed since the start of 1970. A leap second counts with the second
behind it. -/
def elapsed (t : Instant) : ℤ :=
  t.seconds * nanosPerSecond + t.nanos

/-- A second has so many nanoseconds. -/
lemma cast_nanosPerSecond : ((nanosPerSecond : ℕ) : ℤ) = 1000000000 := rfl

/-- The time that has passed, in nanoseconds, counts a leap second as a part of the second before
it. -/
lemma elapsed_eq (t : Instant) : t.elapsed = t.seconds * 1000000000 + t.nanos := rfl

/-- An instant is no leap second if it has fewer nanoseconds than a second. -/
lemma isLeapSecond_eq_false : t.isLeapSecond = false ↔ t.nanos < 1000000000 := by
  rw [isLeapSecond, decide_eq_false_iff_not, Nat.not_le]
  rfl

/-- Instants are ordered by their seconds and then by their nanoseconds. -/
lemma place_lt_iff : a.place < b.place ↔
    a.seconds < b.seconds ∨ a.seconds = b.seconds ∧ a.nanos < b.nanos := by
  rw [place, place, Prod.Lex.toLex_lt_toLex]

/-- Instants are ordered by their seconds and then by their nanoseconds, also where they may be
equal. -/
lemma place_le_iff : a.place ≤ b.place ↔
    a.seconds < b.seconds ∨ a.seconds = b.seconds ∧ a.nanos ≤ b.nanos := by
  rw [place, place, Prod.Lex.toLex_le_toLex]

/-- No instant lies before the earliest one. -/
lemma min_place_le (t : Instant) : min.place ≤ t.place := by
  have hlow : min.seconds ≤ t.seconds := t.seconds_range.1
  have hnanos : min.nanos = 0 := rfl
  rw [place_le_iff]
  omega

/-- Before a later instant more time has not passed, but for a leap second. -/
lemma elapsed_le_of_place_le (ha : a.isLeapSecond = false) (h : a.place ≤ b.place) :
    a.elapsed ≤ b.elapsed := by
  rw [isLeapSecond_eq_false] at ha
  rw [place_le_iff] at h
  rw [elapsed_eq, elapsed_eq]
  omega

/-- Instants that are no leap seconds are in the order of the time that has passed. -/
lemma place_le_iff_elapsed_le (ha : a.isLeapSecond = false) (hb : b.isLeapSecond = false) :
    a.place ≤ b.place ↔ a.elapsed ≤ b.elapsed := by
  rw [isLeapSecond_eq_false] at ha hb
  rw [place_le_iff, elapsed_eq, elapsed_eq]
  omega

/-- An instant after which a second has passed lies before. -/
lemma place_lt_of_elapsed_add_le (h : a.elapsed + 1000000000 ≤ b.elapsed) : a.place < b.place := by
  have hb : b.nanos < 2000000000 := b.nanos_lt
  rw [elapsed_eq, elapsed_eq] at h
  rw [place_lt_iff]
  omega

/-! ### Seconds earlier -/

/-- The instant up to which so much time has passed, if there is one. -/
def atElapsed? (n : ℤ) : Option Instant :=
  normalized? 0 n

/-- The instant after so much time has the second and the nanosecond that this makes. -/
lemma atElapsed?_eq (n : ℤ) :
    atElapsed? n = ofParts? (n / 1000000000) (n % 1000000000).toNat := by
  rw [atElapsed?, normalized?, Int.zero_add]
  rfl

/-- Seconds and nanoseconds make the instant after their sum. -/
lemma normalized?_eq (seconds nanos : ℤ) :
    normalized? seconds nanos = atElapsed? (seconds * 1000000000 + nanos) := by
  rw [atElapsed?_eq, normalized?, cast_nanosPerSecond]
  congr 1 <;> omega

/-- The first instant is the start of a second. -/
lemma elapsed_min : min.elapsed = minSeconds * 1000000000 := rfl

/-- Before the first instant there is none. -/
lemma atElapsed?_eq_none (h : n < min.elapsed) : atElapsed? n = none := by
  rw [elapsed_min] at h
  rw [atElapsed?_eq]
  exact dif_neg fun hparts => absurd hparts.1.1 (by omega)

/-- From the first instant to the last second there is an instant at every nanosecond, which is no
leap second. -/
lemma exists_atElapsed? (hmin : min.elapsed ≤ n) (hmax : n / 1000000000 ≤ maxSeconds) :
    ∃ u, atElapsed? n = some u ∧ u.elapsed = n ∧ u.isLeapSecond = false := by
  rw [elapsed_min] at hmin
  have hseconds : minSeconds ≤ n / 1000000000 := by omega
  have hnanos : (n % 1000000000).toNat < 1000000000 := by omega
  refine ⟨⟨n / 1000000000, (n % 1000000000).toNat, ⟨hseconds, hmax⟩, hnanos.trans (by decide)⟩,
    (atElapsed?_eq n).trans (ofParts?_eq_some.2 ⟨rfl, rfl⟩), ?_, isLeapSecond_eq_false.2 hnanos⟩
  change n / 1000000000 * 1000000000 + ((n % 1000000000).toNat : ℤ) = n
  omega

/-- An instant is moved back by seconds in the time that has passed.

**Proof sketch.** There is no remainder in whole seconds, so the fraction stays, and a leap second
counts as a second that has passed. -/
lemma addMillis?_neg (t : Instant) {seconds : ℕ} (h : 0 < seconds) :
    t.addMillis? (-(1000 * (seconds : ℤ))) = atElapsed? (t.elapsed - seconds * 1000000000) := by
  have hmul : -(1000 * (seconds : ℤ)) = 1000 * -seconds := by omega
  have hneg : -(seconds : ℤ) < 0 := by omega
  have hpos : ¬ (0 : ℤ) < -(seconds : ℤ) := hneg.not_gt
  rw [addMillis?, hmul, Int.mul_tdiv_cancel_left _ (by decide), Int.mul_tmod_right]
  simp only [hneg, hpos, normalized?_eq, elapsed_eq, cast_nanosPerSecond, Int.zero_mul,
    Int.lt_irrefl, decide_false, Bool.false_and, Bool.or_self, Bool.false_eq_true, if_false,
    if_true]
  split <;> congr 1 <;> omega

/-- No seconds later is the same instant. -/
lemma addMillis?_zero (t : Instant) : t.addMillis? 0 = some t := by
  rw [addMillis?]
  split
  case isTrue => exact ofParts?_eq_some.2 ⟨rfl, by simp⟩
  case isFalse hleap =>
    rw [Bool.not_eq_true, isLeapSecond_eq_false] at hleap
    rw [normalized?]
    refine ofParts?_eq_some.2 ?_
    rw [cast_nanosPerSecond]
    change t.seconds = t.seconds + 0 + (t.nanos + 0 : ℤ) / 1000000000 ∧
      t.nanos = ((t.nanos + 0 : ℤ) % 1000000000).toNat
    omega

/-- Seconds earlier there is an instant unless it is before the earliest one, and if it is another
one, it is no leap second.

**Proof sketch.** No seconds change nothing. Otherwise the instant at that time is in the range,
which ends behind the present. -/
theorem exists_addMillis?_neg {seconds : ℕ}
    (hroom : min.elapsed ≤ t.elapsed - seconds * 1000000000) :
    ∃ u, t.addMillis? (-(1000 * (seconds : ℤ))) = some u ∧
      u.elapsed = t.elapsed - seconds * 1000000000 ∧
      (0 < seconds → u.isLeapSecond = false) := by
  rcases Nat.eq_zero_or_pos seconds with rfl | hpos
  · exact ⟨t, t.addMillis?_zero, by omega, fun h => absurd h (Nat.lt_irrefl 0)⟩
  · have hlimit : t.nanos < 2000000000 := t.nanos_lt
    have hmax : (t.elapsed - seconds * 1000000000) / 1000000000 ≤ maxSeconds := by
      have hrange := t.seconds_range.2
      rw [elapsed_eq]
      omega
    obtain ⟨u, hu, helapsed, hleap⟩ := exists_atElapsed? hroom hmax
    exact ⟨u, (addMillis?_neg t hpos).trans hu, helapsed, fun _ => hleap⟩

/-- No instant lies so many seconds back if that is before the first one. -/
theorem addMillis?_neg_eq_none {seconds : ℕ}
    (hout : t.elapsed - seconds * 1000000000 < min.elapsed) :
    t.addMillis? (-(1000 * (seconds : ℤ))) = none := by
  have hmin : min.elapsed ≤ t.elapsed := elapsed_le_of_place_le (by decide) t.min_place_le
  rw [addMillis?_neg t (by omega)]
  exact atElapsed?_eq_none hout

/-! ### Months earlier -/

/-- The time of day: the second first, then the nanosecond. -/
def timeOfDay (t : Instant) : ℤ ×ₗ ℕ :=
  toLex (t.secondOfDay, t.nanos)

/-- The seconds of an instant are those of the days before it and those of its own day. -/
lemma seconds_eq (t : Instant) : t.seconds = t.dayNumber * 86400 + t.secondOfDay := by
  have hsplit := Int.mul_ediv_add_emod t.seconds 86400
  rw [Int.mul_comm] at hsplit
  exact hsplit.symm

/-- An instant lies before another one on an earlier day, or on the same day at an earlier time. -/
theorem place_lt_iff_day : a.place < b.place ↔
    a.dayNumber < b.dayNumber ∨ a.dayNumber = b.dayNumber ∧ a.timeOfDay < b.timeOfDay := by
  have ha := a.secondOfDay_range
  have hb := b.secondOfDay_range
  rw [place_lt_iff, timeOfDay, timeOfDay, Prod.Lex.toLex_lt_toLex, seconds_eq a, seconds_eq b]
  omega

/-- Of instants at the same time of day one does not lie behind if its day does not. -/
lemma place_le_of_timeOfDay_eq (htime : a.timeOfDay = b.timeOfDay)
    (hday : a.dayNumber ≤ b.dayNumber) : a.place ≤ b.place := by
  rw [← not_lt, place_lt_iff_day, htime]
  rintro (hlt | ⟨-, hlt⟩)
  · exact hday.not_gt hlt
  · exact lt_irrefl _ hlt

/-- The date of an instant is one. -/
lemma isValid_date (t : Instant) : t.date.isValid := Date.isValid_ofDayNumber _

/-- The number of the day is that of its date. -/
lemma dayNumber_date (t : Instant) : t.date.dayNumber = t.dayNumber := Date.dayNumber_ofDayNumber _

/-- The first day on which there are instants. -/
lemma minSeconds_eq : minSeconds = min.dayNumber * 86400 := by decide

/-- Before the first day there is no instant at any time of day. -/
lemma onDay?_eq_none {day : ℤ} (h : day < min.dayNumber) : t.onDay? day = none := by
  have hsecond := t.secondOfDay_range
  have hmin := minSeconds_eq
  rw [onDay?, ofParts?]
  refine dif_neg fun hparts => ?_
  have hlow : minSeconds ≤ day * 86400 + t.secondOfDay := hparts.1.1
  omega

/-- On an earlier day there is the same time of day.

**Proof sketch.** The day and the time of day give the seconds, which are between those of the
earliest instant and those of the present. -/
lemma exists_onDay? {day : ℤ} (hmin : min.dayNumber ≤ day) (hday : day ≤ t.dayNumber) :
    ∃ u, t.onDay? day = some u ∧ u.dayNumber = day ∧ u.timeOfDay = t.timeOfDay := by
  have hsecond := t.secondOfDay_range
  have hrange := t.seconds_range.2
  have hlow := minSeconds_eq
  rw [seconds_eq] at hrange
  have hparts : minSeconds ≤ day * 86400 + t.secondOfDay ∧
      day * 86400 + t.secondOfDay ≤ maxSeconds := by omega
  refine ⟨⟨day * 86400 + t.secondOfDay, t.nanos, hparts, t.nanos_lt⟩,
    ofParts?_eq_some.2 ⟨rfl, rfl⟩, ?_, ?_⟩
  · change (day * 86400 + t.secondOfDay) / 86400 = day
    omega
  · have hsame : (day * 86400 + t.secondOfDay) % 86400 = t.secondOfDay := by omega
    exact congrArg (fun second => toLex (second, t.nanos)) hsame

/-- The earliest instant starts a year. -/
lemma date_min : min.date = ⟨min.date.year, 1, 1⟩ := by decide

/-- A date in a year without instants lies before the first day on which there are any. -/
lemma dayNumber_lt_min_iff {d : Date} (h : d.isValid) :
    d.dayNumber < min.dayNumber ↔ d.year < min.date.year := by
  rw [← dayNumber_date, date_min]
  exact Date.dayNumber_lt_newYear_iff h _

/-- Months earlier there is an instant at the same time of day, unless there are none in the
year.

**Proof sketch.** The date has a day before the present one, and not before the earliest one since
its year is not. On that day there is the time (`exists_onDay?`). -/
theorem exists_subtractMonths? {months : ℕ}
    (h : min.date.year ≤ (t.date.subtractMonths months).year) :
    ∃ u, t.subtractMonths? months = some u ∧ u.date = t.date.subtractMonths months ∧
      u.timeOfDay = t.timeOfDay := by
  obtain ⟨hvalid, -, -⟩ := Date.subtractMonths_spec t.isValid_date months
  have hmin : min.dayNumber ≤ (t.date.subtractMonths months).dayNumber := by
    rwa [← not_lt, dayNumber_lt_min_iff hvalid, not_lt]
  have hday : (t.date.subtractMonths months).dayNumber ≤ t.dayNumber := by
    have hanti := Date.dayNumber_subtractMonths_anti t.isValid_date (Nat.zero_le months)
    rwa [Date.subtractMonths_zero t.isValid_date, dayNumber_date] at hanti
  obtain ⟨u, hu, hnumber, htime⟩ := exists_onDay? hmin hday
  refine ⟨u, hu, ?_, htime⟩
  rw [date, hnumber, Date.ofDayNumber_dayNumber hvalid]

/-- No instant lies so many months back if its year is before the first one. -/
theorem subtractMonths?_eq_none {months : ℕ}
    (h : (t.date.subtractMonths months).year < min.date.year) :
    t.subtractMonths? months = none :=
  onDay?_eq_none ((dayNumber_lt_min_iff (Date.subtractMonths_spec t.isValid_date months).1).2 h)

/-- No months earlier is the same instant. -/
lemma subtractMonths?_zero (t : Instant) : t.subtractMonths? 0 = some t := by
  rw [subtractMonths?, Date.subtractMonths_zero t.isValid_date, dayNumber_date]
  exact ofParts?_eq_some.2 ⟨t.seconds_eq, rfl⟩

/-! ### Milliseconds in words -/

/-- A number as a signed word of 64 bits, if it fits. -/
def signedWord? (n : ℤ) : Option ℤ :=
  if -0x8000000000000000 ≤ n ∧ n < 0x8000000000000000 then some n else none

/-- Nanoseconds that make whole seconds are counted as seconds. -/
lemma seconds_of_normalized? {seconds nanos : ℤ} {u : Instant}
    (h : normalized? seconds nanos = some u) : u.seconds = seconds + nanos / 1000000000 :=
  (ofParts?_eq_some.1 h).1

/-- An instant that is moved by milliseconds is moved by as many seconds, up to a few.

**Proof sketch.** Whole seconds are moved by exactly. A part of a second, the nanoseconds and a leap
second move by one second at most each. -/
lemma seconds_of_addMillis? {millis : ℤ} {u : Instant} (h : t.addMillis? millis = some u) :
    (u.seconds - t.seconds - millis / 1000).natAbs ≤ 3 := by
  have hlimit : t.nanos < 2000000000 := t.nanos_lt
  have hsplit := Int.mul_tdiv_add_tmod millis 1000
  have hlow : -1000 < millis.tmod 1000 := Int.lt_tmod_of_pos millis (by decide)
  have hhigh : millis.tmod 1000 < 1000 := Int.tmod_lt_of_pos millis (by decide)
  simp only [addMillis?] at h
  split at h
  case isFalse =>
    have hseconds := seconds_of_normalized? h
    omega
  case isTrue =>
    split at h
    case isTrue =>
      have hseconds := seconds_of_normalized? h
      rw [cast_nanosPerSecond] at hseconds
      omega
    case isFalse hearlier =>
      split at h
      case isTrue =>
        have hseconds := seconds_of_normalized? h
        rw [cast_nanosPerSecond] at hseconds
        omega
      case isFalse hlater =>
        have hseconds := (ofParts?_eq_some.1 h).1
        simp only [Bool.or_eq_true, decide_eq_true_eq, not_or] at hearlier
        omega

/-- Nor is there an instant so far away that the milliseconds do not fit a word, or just do. -/
lemma addMillis?_eq_none_of_le {millis : ℤ} (h : 0x7FFFFFFFFFFFFFFF ≤ millis.natAbs) :
    t.addMillis? millis = none := by
  rw [Option.eq_none_iff_forall_ne_some]
  intro u hu
  have hmoved := seconds_of_addMillis? hu
  have ht := t.seconds_range
  have hu' := u.seconds_range
  simp only [minSeconds, maxSeconds] at ht hu'
  omega

/-- The nanoseconds between two instants are those between their seconds, up to a leap second. -/
lemma nanosSince_eq (a b : Instant) : ∃ leap : ℤ, leap.natAbs ≤ 1 ∧
    a.nanosSince b = (a.seconds - b.seconds + leap) * 1000000000 + ((a.nanos : ℤ) - b.nanos) := by
  have hsum : a.seconds - b.seconds = (a.dayNumber - b.dayNumber) * secondsPerDay +
      (a.secondOfDay - b.secondOfDay) := by
    rw [seconds_eq a, seconds_eq b, secondsPerDay]
    omega
  simp only [nanosSince, ← hsum, cast_nanosPerSecond]
  split
  · exact ⟨1, by decide, rfl⟩
  · split
    · exact ⟨-1, by decide, rfl⟩
    · exact ⟨0, by decide, rfl⟩

/-- The milliseconds between two instants fit a word.

**Proof sketch.** The seconds of both are in their range and the nanoseconds are less than two
seconds, so the difference is far from the limits of a word. -/
lemma signedWord?_millisSince (a b : Instant) :
    signedWord? (a.millisSince b) = some (a.millisSince b) := by
  obtain ⟨leap, hleap, hnanos⟩ := nanosSince_eq a b
  have ha := a.seconds_range
  have hb := b.seconds_range
  have hlimit : a.nanos < 2000000000 := a.nanos_lt
  have hlimit' : b.nanos < 2000000000 := b.nanos_lt
  have hsplit := Int.mul_tdiv_add_tmod (a.nanosSince b) 1000000
  have hlow := Int.lt_tmod_of_pos (a.nanosSince b) (show (0 : ℤ) < 1000000 by decide)
  have hhigh := Int.tmod_lt_of_pos (a.nanosSince b) (show (0 : ℤ) < 1000000 by decide)
  simp only [minSeconds, maxSeconds] at ha hb
  refine if_pos ?_
  rw [millisSince]
  omega

end Cohort.Instant
