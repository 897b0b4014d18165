import Mathlib.Algebra.Order.Field.Power
import Mathlib.Data.Nat.Cast.Order.Field
import Mathlib.Data.Rat.Cast.Order
import Mathlib.Tactic.Lemma
import Mathlib.Tactic.Linarith
import Mathlib.Tactic.Positivity
import Mathlib.Tactic.Ring
import Cohort.Decimal.Shortest
set_option relaxedAutoImplicit false
set_option autoImplicit false

/-!
# Intervals of numbers that round to a float

The numbers that round to a positive float make up an interval around it. The decimal that is
written for a float lies in its interval: eighteen grids from the place of the first digit on are
searched, and the finest of them has two neighbouring points that are less apart than the ends of
the interval. No number lies in the intervals of two different floats. So a float is identified by
what is written for it.

## Main definitions

* `Cohort.Decimal.value`, `Cohort.Decimal.Binary.magnitude` — decimals and binary numbers as
  rational numbers.
* `Cohort.Decimal.Binary.IsCanonical` — the binary numbers that floats have.
* `Cohort.Decimal.Interval.Holds` — a number lies in an interval.

## Main results

* `Cohort.Decimal.Binary.ofFloat_inj` — a float is identified by its sign and its binary number.
* `Cohort.Decimal.holds_shortest` — what is written for a float rounds to it.
* `Cohort.Decimal.Interval.eq_of_holds` — no number rounds to two floats.
-/

namespace Cohort.Decimal

/-- The number that a decimal stands for. -/
def value (d : Decimal) : ℚ :=
  d.coefficient * 10 ^ d.exponent

namespace Binary

variable {b b' : Binary}

/-! ### The binary numbers of floats -/

/-- The number without its sign. -/
def magnitude (b : Binary) : ℚ :=
  b.significand * 2 ^ b.exponent

/-- The significand has as many bits as it can have. -/
structure IsCanonical (b : Binary) : Prop where
  /-- It has no more than fifty-three bits. -/
  significand_lt : b.significand < 2 ^ 53
  /-- The exponent is not below the least one. -/
  exponent_ge : -1074 ≤ b.exponent
  /-- There are fifty-three bits, or the exponent is the least one. -/
  normal : 2 ^ 52 ≤ b.significand ∨ b.exponent = -1074

/-- Floats have canonical binary numbers.

**Proof sketch.** The fraction has fifty-two bits, and the leading bit is added to it unless the
exponent is the least one. -/
lemma isCanonical_ofFloat (x : Float) : (ofFloat x).IsCanonical := by
  have hfraction : x.toBits.toNat % 0x10000000000000 < 0x10000000000000 :=
    Nat.mod_lt _ (by decide)
  constructor
  case significand_lt =>
    simp only [ofFloat]
    split <;> omega
  case exponent_ge =>
    simp only [ofFloat]
    omega
  case normal =>
    simp only [ofFloat]
    split
    case isTrue hzero => exact .inr (by rw [hzero]; rfl)
    case isFalse => exact .inl (by omega)

/-- The parts of the bits of a float. -/
lemma bits_eq (x : Float) : x.toBits.toNat =
    (if (ofFloat x).negative then 0x8000000000000000 else 0) +
      (if (ofFloat x).significand < 0x10000000000000 then (ofFloat x).significand
        else ((ofFloat x).exponent + 1074).toNat * 0x10000000000000 +
          (ofFloat x).significand) := by
  have hlt : x.toBits.toNat < 0x10000000000000000 := x.toBits.toNat_lt
  simp only [ofFloat, decide_eq_true_eq]
  split <;> split <;> split <;> omega

/-- A float is identified by its sign and its binary number.

**Proof sketch.** The bits of a float are computed from its binary number (`bits_eq`). -/
theorem ofFloat_inj {x y : Float} : ofFloat x = ofFloat y ↔ x = y := by
  constructor
  · intro h
    have hbits : x.toBits = y.toBits := by
      apply UInt64.toNat_inj.1
      rw [bits_eq, bits_eq, h]
    cases x with
    | ofModel x =>
      cases y with
      | ofModel y =>
        cases x
        cases y
        cases hbits
        rfl
  · exact congrArg ofFloat

/-- The magnitude is a quotient of whole numbers. -/
lemma magnitude_eq (b : Binary) : b.magnitude = b.numerator / b.denominator := by
  unfold magnitude numerator denominator
  rcases Int.le_total 0 b.exponent with h | h
  · obtain ⟨n, hn⟩ := Int.eq_ofNat_of_zero_le h
    simp [hn]
  · obtain ⟨n, hn⟩ := Int.eq_ofNat_of_zero_le (Int.neg_nonneg_of_nonpos h)
    have hexponent : b.exponent = -(n : ℤ) := by omega
    simp [hexponent, div_eq_mul_inv]

/-- A number is below the power of ten with as many zeros as it has digits. -/
lemma lt_pow_length_toDigits (n : ℕ) : n < 10 ^ (Nat.toDigits 10 n).length :=
  (Nat.length_toDigits_le_iff (by decide) Nat.length_toDigits_pos).1 (Nat.le_refl _)

/-- A number has no more digits than a power of ten up to it. -/
lemma pow_length_toDigits_le {n : ℕ} (h : 0 < n) :
    10 ^ ((Nat.toDigits 10 n).length - 1) ≤ n := by
  by_contra hlt
  have hlength : 0 < (Nat.toDigits 10 n).length := Nat.length_toDigits_pos
  by_cases hone : (Nat.toDigits 10 n).length = 1
  · rw [hone] at hlt
    omega
  · have := (Nat.length_toDigits_le_iff (by decide) (by omega)).2 (not_le.1 hlt)
    omega

/-- The search for the fewest digits starts at the first digit or at the place above it.

**Proof sketch.** The first digit is at the length of the quotient, or of its inverse for numbers
below one, and a number with so many digits is at least the power of ten one place below. -/
lemma pow_leadingPlace_le (hpos : 0 < b.significand) :
    (10 : ℚ) ^ (leadingPlace b - 1) ≤ b.magnitude := by
  have hnum : 0 < b.numerator := Nat.mul_pos hpos (Nat.pow_pos (by decide))
  have hden : 0 < b.denominator := Nat.pow_pos (by decide)
  rw [magnitude_eq, le_div_iff₀ (by exact_mod_cast hden)]
  unfold leadingPlace
  dsimp only
  split
  case isTrue hwhole =>
    generalize hlength : (Nat.toDigits 10 (b.denominator / b.numerator)).length = length
    have hlt : b.denominator ≤ 10 ^ length * b.numerator := by
      have hdigits := lt_pow_length_toDigits (b.denominator / b.numerator)
      rw [hlength] at hdigits
      exact (Nat.div_lt_iff_lt_mul hnum).1 hdigits |>.le
    have hplace : -((length : ℤ) - 1) - 1 = -length := by omega
    rw [hplace, zpow_neg, zpow_natCast, inv_mul_le_iff₀ (by positivity)]
    exact_mod_cast hlt
  case isFalse hwhole =>
    have hdigits := pow_length_toDigits_le (Nat.pos_of_ne_zero hwhole)
    generalize (Nat.toDigits 10 (b.numerator / b.denominator)).length = length at *
    have hplace : (length : ℤ) - 1 - 1 ≤ (length - 1 : ℕ) := by omega
    calc (10 : ℚ) ^ ((length : ℤ) - 1 - 1) * b.denominator
        ≤ 10 ^ ((length - 1 : ℕ) : ℤ) * b.denominator := by
          have := zpow_le_zpow_right₀ (by norm_num : (1 : ℚ) ≤ 10) hplace
          gcongr
      _ = (10 ^ (length - 1) * b.denominator : ℕ) := by
          rw [zpow_natCast]
          push_cast
          rfl
      _ ≤ b.numerator := by
          have hle := (Nat.mul_le_mul_right b.denominator hdigits).trans (Nat.div_mul_le_self _ _)
          exact_mod_cast hle

end Binary

/-! ### Numbers of an interval -/

/-- A rounded quotient is the quotient or the next number. -/
lemma roundDiv_eq (num den : ℕ) (tie : Tie) :
    roundDiv num den tie = num / den ∨ roundDiv num den tie = num / den + 1 := by
  unfold roundDiv
  dsimp only
  split
  case h_1 => exact .inl rfl
  case h_2 => exact .inr rfl
  case h_3 =>
    cases tie with
    | toEven =>
      have hmod := Nat.mod_lt (num / den) (by decide : 0 < 2)
      dsimp only
      omega
    | up => exact .inr rfl

/-- A power with the negative part of the exponent taken out. -/
lemma zpow_toNat {a : ℚ} (ha : a ≠ 0) (n : ℤ) : a ^ n.toNat = a ^ n * a ^ (-n).toNat := by
  rw [← zpow_natCast, ← zpow_natCast, ← zpow_add₀ ha]
  congr 1
  omega

namespace Interval

variable {i : Interval} {place : ℤ} {d n : ℕ} {q : ℚ} {tie : Tie}

/-- The lower end of an interval. -/
def lower (i : Interval) : ℚ :=
  i.low * 2 ^ i.unit

/-- The upper end of an interval. -/
def upper (i : Interval) : ℚ :=
  i.high * 2 ^ i.unit

/-- A number lies in an interval, to which the ends belong if it is closed. -/
def Holds (i : Interval) (q : ℚ) : Prop :=
  if i.closed then i.lower ≤ q ∧ q ≤ i.upper else i.lower < q ∧ q < i.upper

/-- A number of an interval lies between its ends. -/
lemma Holds.bounds (h : i.Holds q) : i.lower ≤ q ∧ q ≤ i.upper := by
  unfold Holds at h
  split at h
  case isTrue => exact h
  case isFalse => exact ⟨h.1.le, h.2.le⟩

/-- Only a closed interval holds its ends. -/
lemma Holds.closed_of_eq (h : i.Holds q) (hend : q = i.lower ∨ q = i.upper) :
    i.closed = true := by
  unfold Holds at h
  split at h
  case isTrue hclosed => exact hclosed
  case isFalse =>
    rcases hend with rfl | rfl
    · exact absurd h.1 (lt_irrefl _)
    · exact absurd h.2 (lt_irrefl _)

/-- What units and multiples of a power of ten are both multiplied by in a comparison. -/
def commonFactor (i : Interval) (place : ℤ) : ℕ :=
  2 ^ (-i.unit).toNat * 10 ^ (-place).toNat

/-- The common factor is not zero. -/
lemma commonFactor_pos (i : Interval) (place : ℤ) : (0 : ℚ) < i.commonFactor place := by
  have : 0 < i.commonFactor place :=
    Nat.mul_pos (Nat.pow_pos (by decide)) (Nat.pow_pos (by decide))
  exact_mod_cast this

/-- The factor for units is what a unit is, times the common factor. -/
lemma cast_unitFactor (i : Interval) (place : ℤ) :
    (i.unitFactor place : ℚ) = 2 ^ i.unit * i.commonFactor place := by
  simp only [unitFactor, commonFactor, Nat.pow_eq, Nat.cast_mul, Nat.cast_pow, Nat.cast_ofNat]
  rw [zpow_toNat two_ne_zero, mul_assoc]

/-- The factor for multiples of a power of ten is this power, times the common factor. -/
lemma cast_gridFactor (i : Interval) (place : ℤ) :
    (i.gridFactor place : ℚ) = 10 ^ place * i.commonFactor place := by
  simp only [gridFactor, commonFactor, Nat.pow_eq, Nat.cast_mul, Nat.cast_pow, Nat.cast_ofNat]
  rw [zpow_toNat (by norm_num : (10 : ℚ) ≠ 0)]
  ring

/-- Units are at most a multiple of a power of ten. -/
lemma units_le_iff : n * i.unitFactor place ≤ d * i.gridFactor place ↔
    (n : ℚ) * 2 ^ i.unit ≤ d * 10 ^ place := by
  rw [← Nat.cast_le (α := ℚ), Nat.cast_mul, Nat.cast_mul, cast_unitFactor, cast_gridFactor,
    ← mul_assoc, ← mul_assoc, mul_le_mul_iff_left₀ (i.commonFactor_pos place)]

/-- A multiple of a power of ten is at most so many units. -/
lemma grid_le_iff : d * i.gridFactor place ≤ n * i.unitFactor place ↔
    (d : ℚ) * 10 ^ place ≤ n * 2 ^ i.unit := by
  rw [← Nat.cast_le (α := ℚ), Nat.cast_mul, Nat.cast_mul, cast_unitFactor, cast_gridFactor,
    ← mul_assoc, ← mul_assoc, mul_le_mul_iff_left₀ (i.commonFactor_pos place)]

/-- A multiple of a power of ten is found in the interval if it lies there. -/
lemma contains_iff : i.contains place d = true ↔ i.Holds (d * 10 ^ place) := by
  unfold contains Holds lower upper
  split
  case isTrue => simp only [Bool.and_eq_true, decide_eq_true_eq, units_le_iff, grid_le_iff]
  case isFalse =>
    simp only [Bool.and_eq_true, decide_eq_true_eq, ← not_le, units_le_iff, grid_le_iff]

/-! ### The search -/

/-- The factor for multiples of a power of ten is not zero. -/
lemma gridFactor_pos (i : Interval) (place : ℤ) : 0 < i.gridFactor place :=
  Nat.mul_pos (Nat.pow_pos (by decide)) (Nat.pow_pos (by decide))

/-- The grid point below the float. -/
lemma floor_le (i : Interval) (place : ℤ) :
    (i.floor place : ℚ) * 10 ^ place ≤ i.value * 2 ^ i.unit :=
  grid_le_iff.1 (Nat.div_mul_le_self _ _)

/-- The grid point above the float. -/
lemma lt_floor_add_one (i : Interval) (place : ℤ) :
    (i.value : ℚ) * 2 ^ i.unit < (i.floor place + 1 : ℕ) * 10 ^ place := by
  rw [← not_le, ← grid_le_iff, not_le, Nat.mul_comm (i.floor place + 1)]
  exact Nat.lt_mul_div_succ _ (i.gridFactor_pos place)

/-- Of the two grid points around the float the nearer one is one of them. -/
lemma nearest_eq (i : Interval) (place : ℤ) (tie : Tie) :
    i.nearest place tie = i.floor place ∨ i.nearest place tie = i.floor place + 1 :=
  roundDiv_eq _ _ tie

/-- What is written at a place lies in the interval and is not zero.

**Proof sketch.** By which of the two neighbouring numbers lie in the interval. If both do the
nearer one is taken, which is one of the two. -/
lemma holds_of_candidate? (h : i.candidate? place tie = some d) :
    0 < d ∧ i.Holds (d * 10 ^ place) := by
  unfold candidate? at h
  dsimp only at h
  split at h
  case isTrue => cases h
  case isFalse hfloor =>
    rw [← contains_iff]
    split at h
    case h_1 hbelow habove =>
      obtain rfl := Option.some.inj h
      rcases i.nearest_eq place tie with hd | hd
      · rw [hd]
        exact ⟨Nat.pos_of_ne_zero hfloor, hbelow⟩
      · rw [hd]
        exact ⟨Nat.succ_pos _, habove⟩
    case h_2 hbelow _ =>
      obtain rfl := Option.some.inj h
      exact ⟨Nat.pos_of_ne_zero hfloor, hbelow⟩
    case h_3 _ habove =>
      obtain rfl := Option.some.inj h
      exact ⟨Nat.succ_pos _, habove⟩
    case h_4 => cases h

/-- A grid meets the interval if it is finer than the interval is long and no coarser than the float
itself.

**Proof sketch.** The float lies between two neighbouring grid points and in the interval. If
neither of them were in the interval, the interval would be shorter than the grid is fine. -/
lemma exists_candidate? (hlow : i.lower < i.value * 2 ^ i.unit)
    (hhigh : i.value * 2 ^ i.unit < i.upper) (hfine : (10 : ℚ) ^ place < i.upper - i.lower)
    (hcoarse : (10 : ℚ) ^ place ≤ i.value * 2 ^ i.unit) (tie : Tie) :
    ∃ d, i.candidate? place tie = some d := by
  have hbelow := i.floor_le place
  have habove := i.lt_floor_add_one place
  have hpower : (0 : ℚ) < 10 ^ place := by positivity
  have hfloor : i.floor place ≠ 0 := by
    intro hzero
    rw [hzero] at habove
    have hone : ((0 + 1 : ℕ) : ℚ) * 10 ^ place = 10 ^ place := by simp
    linarith
  have hmeets : i.contains place (i.floor place) = true ∨
      i.contains place (i.floor place + 1) = true := by
    have hnext : ((i.floor place + 1 : ℕ) : ℚ) * 10 ^ place =
        i.floor place * 10 ^ place + 10 ^ place := by
      push_cast
      ring
    rw [hnext] at habove
    rw [contains_iff, contains_iff, hnext]
    unfold Holds
    -- if the multiple below the number is outside, the next one is inside: a step is shorter
    by_cases h : i.lower < i.floor place * 10 ^ place
    · left
      split
      case isTrue => exact ⟨h.le, by linarith⟩
      case isFalse => exact ⟨h, by linarith⟩
    · right
      split
      case isTrue => exact ⟨by linarith, by linarith⟩
      case isFalse => exact ⟨by linarith, by linarith⟩
  unfold candidate?
  dsimp only
  rw [if_neg hfloor]
  cases hfirst : i.contains place (i.floor place) <;>
    cases hsecond : i.contains place (i.floor place + 1)
  case false.false => simp [hfirst, hsecond] at hmeets
  all_goals exact ⟨_, rfl⟩

/-- If one of the grids meets the interval, the search finds a number of the interval that is not
zero.

**Proof sketch.** Induction on the number of places searched. What is found at the first place lies
in the interval; if nothing is found there, the place with a number is one of those behind it. -/
lemma holds_search {steps : ℕ} (h : ∃ k < steps, ∃ d, i.candidate? (place - k) tie = some d) :
    0 < (i.search tie steps place).coefficient ∧ i.Holds (i.search tie steps place).value := by
  induction steps generalizing place with
  | zero =>
    obtain ⟨k, hk, -⟩ := h
    exact absurd hk (Nat.not_lt_zero k)
  | succ steps ih =>
    rw [search]
    split
    case h_1 d hd => exact holds_of_candidate? hd
    case h_2 hnone =>
      apply ih
      obtain ⟨k, hk, d, hd⟩ := h
      cases k with
      | zero =>
        rw [Nat.cast_zero, sub_zero, hnone] at hd
        cases hd
      | succ k =>
        refine ⟨k, Nat.lt_of_succ_lt_succ hk, d, ?_⟩
        rw [← hd]
        congr 1
        push_cast
        ring

/-! ### The interval of a float -/

variable {b b' : Binary}

/-- The float is its own number. -/
lemma value_ofBinary (b : Binary) :
    ((ofBinary b).value : ℚ) * 2 ^ (ofBinary b).unit = b.magnitude := by
  have hunit : (2 : ℚ) ^ (b.exponent - 2) = 2 ^ b.exponent / 4 := by
    rw [zpow_sub₀ two_ne_zero]
    norm_num
  simp only [ofBinary, Binary.magnitude, hunit]
  push_cast
  ring

/-- The ends of the interval of a float other than zero. -/
lemma ends_ofBinary (h : 0 < b.significand) :
    (ofBinary b).low < (ofBinary b).value ∧ (ofBinary b).value < (ofBinary b).high := by
  simp only [ofBinary]
  split <;> omega

/-- The number of a float lies between the ends of its interval. -/
lemma magnitude_between_ends (h : 0 < b.significand) :
    (ofBinary b).lower < b.magnitude ∧ b.magnitude < (ofBinary b).upper := by
  obtain ⟨hlow, hhigh⟩ := ends_ofBinary h
  have hpower : (0 : ℚ) < 2 ^ (ofBinary b).unit := by positivity
  rw [← value_ofBinary]
  constructor
  · exact mul_lt_mul_of_pos_right (by exact_mod_cast hlow) hpower
  · exact mul_lt_mul_of_pos_right (by exact_mod_cast hhigh) hpower

/-- The number of a float is less than `10 ^ 16` times as great as its interval is long.

**Proof sketch.** It is enough to compare whole numbers of units. The significand has fifty-three
bits, and the interval is one unit of it long, or three quarters of one at a power of two. -/
lemma magnitude_lt_length (h : b.IsCanonical) (hpos : 0 < b.significand) :
    b.magnitude < 10 ^ 16 * ((ofBinary b).upper - (ofBinary b).lower) := by
  have hpower : (0 : ℚ) < 2 ^ (ofBinary b).unit := by positivity
  have hlength : (ofBinary b).value < 10 ^ 16 * ((ofBinary b).high - (ofBinary b).low) := by
    have hlt := h.significand_lt
    simp only [ofBinary]
    split
    case isTrue hnarrow =>
      have : b.significand = 0x10000000000000 := by simp_all
      omega
    case isFalse => omega
  rw [← value_ofBinary, upper, lower, ← sub_mul, ← mul_assoc]
  apply mul_lt_mul_of_pos_right _ hpower
  rw [← Nat.cast_sub (by have := ends_ofBinary hpos; omega)]
  exact_mod_cast hlength

end Interval

/-- What is written for a float other than zero is not zero, and it rounds to the float.

**Proof sketch.** The last grid that is searched is sixteen places below the first digit, so its
points are closer to each other than the ends of the interval. -/
theorem holds_shortest {b : Binary} (h : b.IsCanonical) (hpos : 0 < b.significand) (tie : Tie) :
    0 < (shortest b tie).coefficient ∧
      (Interval.ofBinary b).Holds (shortest b tie).value := by
  have hleading := b.pow_leadingPlace_le hpos
  have hlength := Interval.magnitude_lt_length h hpos
  obtain ⟨hlow, hhigh⟩ := Interval.magnitude_between_ends hpos
  have hpower : (10 : ℚ) ^ (leadingPlace b - 1) = 10 ^ 16 * 10 ^ (leadingPlace b - 17) := by
    rw [← zpow_natCast, ← zpow_add₀ (by norm_num)]
    congr 1
    push_cast
    ring
  have hpos' : (0 : ℚ) < 10 ^ (leadingPlace b - 17) := by positivity
  apply Interval.holds_search
  refine ⟨17, by decide, ?_⟩
  apply Interval.exists_candidate?
  · rw [Interval.value_ofBinary]
    exact hlow
  · rw [Interval.value_ofBinary]
    exact hhigh
  · have : (10 : ℚ) ^ (leadingPlace b - (17 : ℕ)) = 10 ^ (leadingPlace b - 17) := rfl
    rw [this]
    linarith
  · have : (10 : ℚ) ^ (leadingPlace b - (17 : ℕ)) = 10 ^ (leadingPlace b - 17) := rfl
    rw [Interval.value_ofBinary, this]
    linarith

namespace Interval

variable {b b' : Binary} {q : ℚ}

/-- One of two canonical binary numbers comes first: the one with the lower exponent, or with the
same exponent and the lower significand. -/
def Precedes (b b' : Binary) : Prop :=
  b.exponent < b'.exponent ∨ b.exponent = b'.exponent ∧ b.significand < b'.significand

/-- The interval of a float ends where that of a greater one begins, or before. If it ends there,
one of them is open. Both ends are counted in units of the lower float.

**Proof sketch.** With the same exponent the intervals meet between neighbours, one of which has an
odd significand. Otherwise the greater float has all bits, so its interval begins at that of the
least such float with the next exponent or above; the lower float only reaches there with its
greatest significand, which is odd. -/
lemma high_le_low (h : b.IsCanonical) (h' : b'.IsCanonical) (hb : Precedes b b') {shift : ℕ}
    (hshift : b'.exponent = b.exponent + shift) :
    (ofBinary b).high ≤ (ofBinary b').low * 2 ^ shift ∧
      ((ofBinary b).high = (ofBinary b').low * 2 ^ shift →
        ¬ ((ofBinary b).closed = true ∧ (ofBinary b').closed = true)) := by
  have hlt := h.significand_lt
  have hnormal := h.normal
  have hnormal' := h'.normal
  have hge := h.exponent_ge
  cases shift with
  | zero =>
    have hexponent : b'.exponent = b.exponent := by omega
    -- with equal exponents the significands decide
    have hsignificand : b.significand < b'.significand := by
      rcases hb with hb | hb
      · omega
      · exact hb.2
    simp only [ofBinary, pow_zero, mul_one, beq_iff_eq]
    split
    case isTrue hnarrow =>
      simp only [Bool.and_eq_true, beq_iff_eq, decide_eq_true_eq] at hnarrow
      omega
    case isFalse => omega
  | succ shift =>
    -- a greater exponent makes the units of the second float at least twice as long
    have hdouble : (ofBinary b').low * 2 ≤ (ofBinary b').low * 2 ^ (shift + 1) :=
      Nat.mul_le_mul_left _ (Nat.le_self_pow (Nat.succ_ne_zero shift) 2)
    generalize (ofBinary b').low * 2 ^ (shift + 1) = low at *
    revert hdouble
    simp only [ofBinary, beq_iff_eq]
    split
    case isTrue hnarrow =>
      simp only [Bool.and_eq_true, beq_iff_eq, decide_eq_true_eq] at hnarrow
      omega
    case isFalse hwide =>
      simp only [Bool.and_eq_true, beq_iff_eq, decide_eq_true_eq, not_and] at hwide
      have hlarger : b'.significand ≠ 0x10000000000000 := fun heq => hwide heq (by omega)
      omega

/-- The ends of the intervals of two floats as numbers.

**Proof sketch.** Both intervals are measured in the unit of the lower float, where the ends are
natural numbers, and there the ends are compared by `high_le_low`. -/
lemma upper_le_lower (h : b.IsCanonical) (h' : b'.IsCanonical) (hb : Precedes b b') :
    (ofBinary b).upper ≤ (ofBinary b').lower ∧
      ((ofBinary b).upper = (ofBinary b').lower →
        ¬ ((ofBinary b).closed = true ∧ (ofBinary b').closed = true)) := by
  obtain ⟨shift, hshift⟩ : ∃ shift : ℕ, b'.exponent = b.exponent + shift :=
    ⟨(b'.exponent - b.exponent).toNat, by rcases hb with hb | hb <;> omega⟩
  obtain ⟨hle, hopen⟩ := high_le_low h h' hb hshift
  have hpower : (0 : ℚ) < 2 ^ (b.exponent - 2) := by positivity
  have hlower : (ofBinary b').lower =
      ((ofBinary b').low * 2 ^ shift : ℕ) * 2 ^ (b.exponent - 2) := by
    have hunit : (ofBinary b').unit = shift + (b.exponent - 2) := by
      simp only [ofBinary]
      omega
    rw [lower, hunit, zpow_add₀ two_ne_zero, zpow_natCast, ← mul_assoc]
    push_cast
    rfl
  have hupper : (ofBinary b).upper = ((ofBinary b).high : ℕ) * 2 ^ (b.exponent - 2) := rfl
  rw [hlower, hupper]
  constructor
  · apply mul_le_mul_of_nonneg_right _ hpower.le
    exact_mod_cast hle
  · intro heq
    apply hopen
    exact_mod_cast mul_right_cancel₀ hpower.ne' heq

/-- No number lies in the intervals of two floats.

**Proof sketch.** It would be where the interval of the one ends and that of the other begins, and
then it would belong to both. -/
theorem eq_of_holds (h : b.IsCanonical) (h' : b'.IsCanonical) (hb : (ofBinary b).Holds q)
    (hb' : (ofBinary b').Holds q) :
    b.significand = b'.significand ∧ b.exponent = b'.exponent := by
  have happart : ∀ {c c' : Binary}, c.IsCanonical → c'.IsCanonical → (ofBinary c).Holds q →
      (ofBinary c').Holds q → ¬ Precedes c c' := by
    intro c c' hc hc' hq hq' hprecedes
    obtain ⟨hle, hmeet⟩ := upper_le_lower hc hc' hprecedes
    have hupper : q = (ofBinary c).upper :=
      le_antisymm hq.bounds.2 (hle.trans hq'.bounds.1)
    have hlower : q = (ofBinary c').lower :=
      le_antisymm (hq.bounds.2.trans hle) hq'.bounds.1
    exact hmeet (hupper.symm.trans hlower)
      ⟨hq.closed_of_eq (.inr hupper), hq'.closed_of_eq (.inl hlower)⟩
  have hfirst := happart h h' hb hb'
  have hsecond := happart h' h hb' hb
  unfold Precedes at hfirst hsecond
  omega

end Interval

end Cohort.Decimal
