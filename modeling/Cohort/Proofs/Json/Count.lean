import Mathlib
import Cohort.Proofs.Decimal.Interval
import Cohort.Proofs.Decimal.Order
import Cohort.Proofs.Json.Exact
import Cohort.Proofs.Json.Number
set_option relaxedAutoImplicit false
set_option autoImplicit false

/-!
# Counts as floats

A count of at most sixty-four bits may be no float, so its nearest float says something else. Still
it says whether there is something to be counted: the float nearest to a count is at least one if
the count is. Rounding a long mantissa drops all bits but fifty-three, of which the first is set,
and the exponent rises by the number of the dropped bits; so the float is no less than a power of
two that is not above the count.

## Main results

* `Cohort.Json.Number.exists_roundWithAccuracy_eq` — what is left of a long mantissa.
* `Cohort.Json.Number.one_atMost_ofInt`, `Cohort.Json.Number.ofInt_atMost_zero` — when the float
  nearest to a count is at least one and at most zero.
-/

namespace Cohort.Json.Number

open Float.Model Float.Model.UnpackedFloat

variable {m n : ℕ} {e : ℤ}

/-! ### Rounding -/

/-- Fifty-three bits of a long mantissa are kept, the first of which is set.

**Proof sketch.** A number is between the power of two of its logarithm and the next one. Both
bounds are divided. -/
lemma bounds_div_two_pow (h : 52 ≤ m.log2) :
    2 ^ 52 ≤ m / 2 ^ (m.log2 - 52) ∧ m / 2 ^ (m.log2 - 52) < 2 ^ 53 := by
  have hne : m ≠ 0 := by
    rintro rfl
    cases h
  have hpos : 0 < 2 ^ (m.log2 - 52) := Nat.two_pow_pos _
  rw [Nat.le_div_iff_mul_le hpos, Nat.div_lt_iff_lt_mul hpos, ← pow_add, ← pow_add]
  have hlow : 52 + (m.log2 - 52) = m.log2 := by omega
  have hhigh : 53 + (m.log2 - 52) = m.log2 + 1 := by omega
  rw [hlow, hhigh]
  exact ⟨Nat.log2_self_le hne, Nat.lt_log2_self⟩

/-- A long mantissa is shifted until fifty-three bits are left.

**Proof sketch.** The target exponent is the one at which fifty-three bits are left, so the shift
drops the bits in excess. -/
lemma exists_shiftToTargetExponent_eq (hlog : 52 ≤ m.log2) (he : -1074 ≤ e) :
    ∃ em : ExtendedMantissa,
      shiftToTargetExponent Format.binary64 m e .exact = (em, e + (m.log2 - 52)) ∧
        em.mantissa = m / 2 ^ (m.log2 - 52) := by
  have hmin : Format.binary64.minExponent = -1074 := rfl
  have hbits : Format.binary64.mantissaBits = 53 := rfl
  have htarget : Format.binary64.targetExponent (totalExponent m e) = e + (m.log2 - 52) := by
    simp only [Format.targetExponent, totalExponent, hmin, hbits]
    omega
  have hshift : (e + ((m.log2 : ℤ) - 52) - e).toNat = m.log2 - 52 := by omega
  refine ⟨ExtendedMantissa.ofMantissaAndAccuracy m .exact >>> (m.log2 - 52), ?_, ?_⟩
  · rw [shiftToTargetExponent, htarget, shiftToExponent, hshift]
    congr 1
    omega
  · rw [mantissa_shiftRight]
    rfl

/-- A long mantissa is rounded to fifty-three bits, and the exponent rises by the number of the
other ones, or by one more.

**Proof sketch.** The kept bits are rounded up or not. If they were all set, rounding them up makes
one more bit, and they are shifted again. -/
lemma exists_roundWithAccuracy_eq (sign : Sign) (hlog : 52 ≤ m.log2) (he : -1074 ≤ e) :
    ∃ (m' : ℕ) (e' : ℤ) (hpos : 0 < m'),
      roundWithAccuracy Format.binary64 sign m e .exact = .finite sign m' e' hpos ∧
        m'.log2 = 52 ∧ e + (m.log2 - 52) ≤ e' ∧ e' ≤ e + (m.log2 - 52) + 1 := by
  obtain ⟨em, hfirst, hkept⟩ := exists_shiftToTargetExponent_eq hlog he
  obtain ⟨hlow, hhigh⟩ := bounds_div_two_pow hlog
  have hle := le_roundedMantissa em
  have hge := roundedMantissa_le em
  rw [hkept] at hle hge
  by_cases hcarry : em.roundedMantissa < 2 ^ 53
  · have hpos : 0 < em.roundedMantissa := by omega
    have hlog' : em.roundedMantissa.log2 = 52 :=
      (Nat.log2_eq_iff hpos.ne').2 ⟨hlow.trans hle, hcarry⟩
    have hagain := shiftToTargetExponent_eq (e := e + (m.log2 - 52)) hlog' (by omega) 0
    rw [pow_zero, mul_one, Int.natCast_zero, sub_zero] at hagain
    refine ⟨em.roundedMantissa, _, hpos, ?_, hlog', le_rfl, by omega⟩
    simp only [roundWithAccuracy, hfirst, hagain]
    exact dif_neg hpos.ne'
  · have hrounded : em.roundedMantissa = 2 ^ 52 * 2 ^ 1 := by omega
    have hagain := shiftToTargetExponent_eq (e := e + (m.log2 - 52) + 1)
      (Nat.log2_two_pow (n := 52)) (by omega) 1
    rw [Int.natCast_one, add_sub_cancel_right] at hagain
    refine ⟨2 ^ 52, _, by decide, ?_, Nat.log2_two_pow, by omega, le_rfl⟩
    simp only [roundWithAccuracy, hfirst, hrounded, hagain]
    rfl

/-! ### Counts -/

/-- The float nearest to a whole number with more bits than a float has.

**Proof sketch.** Such a number is multiplied as a float with one, which rounds its mantissa to
fifty-three bits, and what is rounded is packed and unpacked without a change. -/
lemma exists_unpack_ofNat_of_large (hlog : 53 ≤ n.log2) (h : n < 2 ^ 64) :
    ∃ (m : ℕ) (e : ℤ) (hpos : 0 < m),
      (Float.ofNat n).toModel.unpack = .finite .positive m e hpos ∧ m.log2 = 52 ∧ -52 ≤ e := by
  have hne : n ≠ 0 := by
    rintro rfl
    cases hlog
  have hlarge : ¬ n < 2 ^ 53 := by
    rw [← Nat.log2_lt hne]
    omega
  have hbits : n.log2 < 64 := (Nat.log2_lt hne).2 h
  have hdigits : Format.binary64.mantissaBits = 53 := rfl
  have hlow : ¬ (0 : ℤ) < -((2 ^ Format.binary64.exponentBits : ℤ) + n.log2) := by
    have hpower : (2 ^ Format.binary64.exponentBits : ℤ) = 2048 := rfl
    omega
  have hlog' : (n * 2 ^ 53).log2 = n.log2 + 53 := log2_mul_two_pow hne 53
  obtain ⟨m, e, hpos, hround, hm, hle, hge⟩ :=
    exists_roundWithAccuracy_eq (m := n * 2 ^ 53) (e := -53) .positive (by omega) (by decide)
  have hvalue : UnpackedFloat.ofScientific Format.binary64 n 0 = .finite .positive m e hpos := by
    rw [UnpackedFloat.ofScientific, dif_neg hne, if_neg (by decide), if_neg hlow,
      if_pos (by decide), ← hround]
    simp only [UnpackedFloat.mul, hdigits, Nat.shiftLeft_eq, Int.toNat_zero, pow_zero, mul_one,
      add_zero]
    rfl
  refine ⟨m, e, hpos, ?_, hm, by omega⟩
  change (Float.ofScientific n false 0).toModel.unpack = _
  rw [Float.ofScientific, dif_neg fun hsmall => hlarge hsmall.1]
  change UnpackedFloat.unpack _ (UnpackedFloat.pack _ (UnpackedFloat.ofScientific _ n 0)) = _
  rw [hvalue]
  exact unpack_pack_eq hpos hm (by omega) (by omega)

/-- The float nearest to a count is no less than a power of two from one on. -/
lemma exists_unpack_ofNat (hpos : 0 < n) (h : n < 2 ^ 64) :
    ∃ (m : ℕ) (e : ℤ) (hpos : 0 < m),
      (Float.ofNat n).toModel.unpack = .finite .positive m e hpos ∧ m.log2 = 52 ∧ -52 ≤ e := by
  by_cases hlog : n.log2 ≤ 52
  · refine ⟨_, _, _, unpack_ofNat hpos hlog, ?_, by omega⟩
    rw [log2_mul_two_pow hpos.ne']
    omega
  · exact exists_unpack_ofNat_of_large (by omega) h

/-- So its place is not before that of one.

**Proof sketch.** The bits of a float of at least one are the mantissa with an exponent of at least
that of one, and so they are no less than the bits of one. -/
lemma one_le_numericKey_ofInt (hpos : 0 < n) (h : n < 2 ^ 64) :
    Decimal.numericKey 1.0 ≤ Decimal.numericKey (Float.ofInt n) := by
  obtain ⟨m, e, hm, hunpack, hlog, he⟩ := exists_unpack_ofNat hpos h
  obtain ⟨negative, hvalue, hsign⟩ := ofFloat_eq hunpack
  have hone : Decimal.numericKey 1.0 = 0x3FF0000000000000 := rfl
  have hlow : 0x10000000000000 ≤ m := ((Nat.log2_eq_iff hm.ne').1 hlog).1
  have hbits := Decimal.Binary.bits_eq (Float.ofNat n)
  cases negative with
  | true => cases hsign
  | false =>
    have hplus : ¬ 0x8000000000000000 ≤ (Float.ofNat n).toBits.toNat :=
      of_decide_eq_false (congrArg Decimal.Binary.negative hvalue)
    have hkey : Decimal.numericKey (Float.ofInt n) = (Float.ofNat n).toBits.toNat := if_neg hplus
    rw [hvalue, if_neg Bool.false_ne_true, if_neg (Nat.not_lt.2 hlow)] at hbits
    rw [hone, hkey, hbits]
    dsimp only
    omega

variable (h : n < 2 ^ 64)
include h

/-- The float nearest to a count is finite. -/
lemma isFinite_ofInt : (Float.ofInt n).isFinite = true :=
  isFinite_toFloat (.integer n ⟨by omega, by omega⟩)

/-- The float nearest to a count is at least one if and only if there is something to be counted. -/
theorem one_atMost_ofInt : Decimal.atMost 1.0 (Float.ofInt n) = true ↔ 0 < n := by
  rw [Decimal.atMost_iff (by rfl) (isFinite_ofInt h)]
  constructor
  · intro hle
    refine Nat.pos_of_ne_zero ?_
    rintro rfl
    exact absurd hle (by decide +kernel)
  · exact fun hpos => one_le_numericKey_ofInt hpos h

/-- It is at most zero if and only if there is nothing. -/
theorem ofInt_atMost_zero : Decimal.atMost (Float.ofInt n) 0.0 = true ↔ n = 0 := by
  rw [Decimal.atMost_iff (isFinite_ofInt h) (by rfl)]
  constructor
  · intro hle
    by_contra hne
    have hone := one_le_numericKey_ofInt (Nat.pos_of_ne_zero hne) h
    exact absurd (hone.trans hle) (by decide +kernel)
  · rintro rfl
    decide +kernel

end Cohort.Json.Number
