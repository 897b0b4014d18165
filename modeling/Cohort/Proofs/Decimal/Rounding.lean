import Mathlib.Algebra.Order.Round
import Mathlib.Data.Rat.Floor
import Mathlib.Data.Sign.Basic
import Cohort.Proofs.Decimal.Interval
import Cohort.Proofs.Decimal.Order
set_option relaxedAutoImplicit false
set_option autoImplicit false

/-!
# Rounding floats

A finite float is a rational number, and the whole numbers that are written for it are those nearest
to that number, or to a multiple of it. Of the two rules for a half, one takes the greater
neighbour of a magnitude, as rounding does; the other one makes nothing of a half of the last place.

## Main definitions

* `Cohort.Decimal.Binary.value` — the rational number that a binary number is.
* `Cohort.Decimal.roundAway` — the nearest whole number, of two the one that is not nearer to zero.

## Main results

* `Cohort.Decimal.isNegative_iff` — a float is below zero if its number is.
* `Cohort.Decimal.Binary.cast_roundedMagnitude_up` — magnitudes are rounded to the nearest number.
* `Cohort.Decimal.Binary.roundedMagnitude_toEven_eq_zero_iff` — what is rounded to zero.
-/

namespace Cohort.Decimal

namespace Binary

variable {b : Binary}

/-- The number with its sign. -/
def value (b : Binary) : ℚ :=
  if b.negative then -b.magnitude else b.magnitude

/-- No magnitude is negative. -/
lemma magnitude_nonneg (b : Binary) : 0 ≤ b.magnitude :=
  mul_nonneg (Nat.cast_nonneg _) (zpow_nonneg zero_le_two _)

/-- Only zero has no magnitude. -/
lemma magnitude_pos_iff : 0 < b.magnitude ↔ b.significand ≠ 0 := by
  rw [magnitude, mul_pos_iff_of_pos_right (zpow_pos two_pos _), Nat.cast_pos, Nat.pos_iff_ne_zero]

/-- The magnitude of a number is its absolute value. -/
lemma abs_value (b : Binary) : |b.value| = b.magnitude := by
  rw [value]
  split
  · rw [abs_neg, abs_of_nonneg b.magnitude_nonneg]
  · rw [abs_of_nonneg b.magnitude_nonneg]

/-- A number other than zero has a significand other than zero. -/
lemma significand_pos (h : b.value ≠ 0) : 0 < b.significand := by
  rw [← abs_pos, abs_value, magnitude_pos_iff] at h
  exact Nat.pos_of_ne_zero h

/-- A number is negative if it has the sign and is not zero. -/
lemma value_neg_iff : b.value < 0 ↔ b.negative = true ∧ b.significand ≠ 0 := by
  rw [value]
  split
  case isTrue h => rw [neg_lt_zero, magnitude_pos_iff, h, and_iff_right rfl]
  case isFalse h => exact iff_of_false b.magnitude_nonneg.not_gt fun hneg => h hneg.1

/-- The sign of a number other than zero is that of its value. -/
lemma negative_iff (h : b.value ≠ 0) : b.negative = true ↔ b.value < 0 := by
  rw [value_neg_iff, and_iff_left (significand_pos h).ne']

/-- The denominator of a number is a power of two, and so not zero. -/
lemma denominator_pos (b : Binary) : 0 < b.denominator :=
  Nat.pow_pos (by decide)

/-! ### The nearest whole number -/

/-- The nearest whole number to a quotient, the greater one if there are two.

**Proof sketch.** The rounded quotient differs from the quotient by at most a half, and by less than
a half if it is smaller. These bounds are linear in the quotient and its remainder, and they
characterise the nearest whole number. -/
lemma cast_roundDiv_up (num : ℕ) {den : ℕ} (h : 0 < den) :
    (roundDiv num den .up : ℤ) = round (num / den : ℚ) := by
  have hpos : (0 : ℚ) < den := by exact_mod_cast h
  have hbounds : 2 * (den * roundDiv num den .up) ≤ 2 * num + den ∧
      2 * num + den < 2 * (den * roundDiv num den .up) + 2 * den := by
    have hnum := Nat.div_add_mod num den
    have hmod := Nat.mod_lt num h
    unfold roundDiv
    dsimp only
    split
    case h_1 hcompare =>
      have := Nat.compare_eq_lt.1 hcompare
      omega
    case h_2 hcompare =>
      have := Nat.compare_eq_gt.1 hcompare
      rw [Nat.mul_add]
      omega
    case h_3 hcompare =>
      have := Nat.compare_eq_eq.1 hcompare
      rw [Nat.mul_add]
      omega
  obtain ⟨hlow, hhigh⟩ := hbounds
  have hlow : 2 * (den * (roundDiv num den .up : ℚ)) ≤ 2 * num + den := by exact_mod_cast hlow
  have hhigh : 2 * (num : ℚ) + den < 2 * (den * roundDiv num den .up) + 2 * den := by
    exact_mod_cast hhigh
  rw [round_eq, eq_comm, Int.floor_eq_iff, Int.cast_natCast]
  have hsum : (num / den : ℚ) + 1 / 2 = (2 * num + den) / (2 * den) := by
    field_simp
  rw [hsum, le_div_iff₀ (by positivity), div_lt_iff₀ (by positivity)]
  constructor <;> linarith

/-- A magnitude is rounded to the nearest whole number. -/
theorem cast_roundedMagnitude_up (b : Binary) :
    (b.roundedMagnitude 0 .up : ℤ) = round b.magnitude := by
  rw [roundedMagnitude, cast_roundDiv_up _ b.denominator_pos, magnitude_eq]
  simp

/-- A quotient is rounded to zero if it is no more than a half.

**Proof sketch.** By how the remainder compares with the half. Below it the quotient is kept, above
it the next number is taken, and on it the even one. -/
lemma roundDiv_toEven_eq_zero_iff (num : ℕ) {den : ℕ} (h : 0 < den) :
    roundDiv num den .toEven = 0 ↔ 2 * num ≤ den := by
  have hzero : num / den = 0 ↔ num < den := Nat.div_eq_zero_iff.trans (or_iff_right h.ne')
  unfold roundDiv
  dsimp only
  split
  case h_1 hcompare =>
    have hlt := Nat.compare_eq_lt.1 hcompare
    rw [hzero]
    constructor
    · intro hsmall
      rw [Nat.mod_eq_of_lt hsmall] at hlt
      omega
    · omega
  case h_2 hcompare =>
    have hgt := Nat.compare_eq_gt.1 hcompare
    have hle := Nat.mod_le num den
    refine iff_of_false (Nat.succ_ne_zero _) ?_
    omega
  case h_3 hcompare =>
    have heq := Nat.compare_eq_eq.1 hcompare
    have heven : ∀ n, n + n % 2 = 0 ↔ n = 0 := by omega
    rw [heven, hzero]
    constructor
    · intro hsmall
      rw [Nat.mod_eq_of_lt hsmall] at heq
      omega
    · omega

/-- With so many places a magnitude is rounded to zero if it is no more than half of the last
place. -/
theorem roundedMagnitude_toEven_eq_zero_iff (b : Binary) (places : ℕ) :
    b.roundedMagnitude places .toEven = 0 ↔ 2 * 10 ^ places * b.magnitude ≤ 1 := by
  have hpos : (0 : ℚ) < b.denominator := by exact_mod_cast b.denominator_pos
  rw [roundedMagnitude, roundDiv_toEven_eq_zero_iff _ b.denominator_pos, magnitude_eq,
    ← mul_div_assoc, div_le_one hpos, ← Nat.cast_le (α := ℚ)]
  push_cast [Nat.pow_eq]
  ring_nf

end Binary

/-! ### The sign -/

/-- The nearest whole number, and of two such numbers the one further from zero. -/
def roundAway (q : ℚ) : ℤ :=
  SignType.sign q * round |q|

/-- Below zero, halves are rounded down. -/
lemma roundAway_of_neg {q : ℚ} (h : q < 0) : roundAway q = -round |q| := by
  rw [roundAway, sign_neg h, SignType.coe_neg_one, neg_one_mul]

/-- From zero on, halves are rounded up. -/
lemma roundAway_of_nonneg {q : ℚ} (h : 0 ≤ q) : roundAway q = round |q| := by
  rcases h.eq_or_lt with rfl | hpos
  · rw [roundAway, abs_zero, round_zero, mul_zero]
  · rw [roundAway, sign_pos hpos, SignType.coe_one, one_mul]

/-- A finite float is below zero if its number is.

**Proof sketch.** The sign is the first bit, so the key of a float is negative exactly if this bit
is set and another one is. -/
theorem isNegative_iff {x : Float} (hx : x.isFinite = true) :
    isNegative x = true ↔ (Binary.ofFloat x).value < 0 := by
  have hkey : numericKey 0 = 0 := rfl
  have hbits := Binary.bits_eq x
  rw [isNegative, below_iff hx (by rfl), hkey, Binary.value_neg_iff]
  have hsign : (Binary.ofFloat x).negative = true ↔ 0x8000000000000000 ≤ x.toBits.toNat :=
    decide_eq_true_iff
  rw [hsign]
  unfold numericKey
  dsimp only
  split
  case isTrue hnegative =>
    rw [if_pos (hsign.2 hnegative)] at hbits
    simp only [hnegative, true_and]
    split at hbits <;> omega
  case isFalse hpositive =>
    refine iff_of_false (by omega) fun h => hpositive h.1

end Cohort.Decimal
