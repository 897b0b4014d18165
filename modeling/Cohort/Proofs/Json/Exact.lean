import Mathlib
import Cohort.Json.Basic
set_option relaxedAutoImplicit false
set_option autoImplicit false

/-!
# Whole numbers that are floats

A whole number of at most fifty-three bits is a float. To be stored, its mantissa gets zeros behind
it until it has all fifty-three bits, and no bit is lost on the way: not when it is rounded, not
when it is packed and unpacked, and not when it is multiplied by one. So two such numbers have
different nearest floats. With one more bit this is no longer so.

## Main results

* `Cohort.Json.Number.unpack_ofInt` — the float nearest to a whole number of fifty-three bits.
* `Cohort.Json.Number.ofInt_inj` — such numbers have different nearest floats.
* `Cohort.Json.Number.truncate_ofInt` — they are the whole parts of their nearest floats. -/

namespace Cohort.Json.Number

open Float.Model Float.Model.UnpackedFloat

variable {m n : ℕ} {e : ℤ} {sign : Sign}

/-! ### Rounding -/

/-- A number that is doubled so often has as many bits more. -/
lemma log2_mul_two_pow (h : m ≠ 0) (k : ℕ) : (m * 2 ^ k).log2 = m.log2 + k := by
  induction k with
  | zero => rw [pow_zero, mul_one, Nat.add_zero]
  | succ k ih =>
    have hne : m * 2 ^ k ≠ 0 := Nat.mul_ne_zero h (Nat.two_pow_pos k).ne'
    rw [pow_succ', Nat.mul_left_comm, Nat.log2_two_mul hne, ih, Nat.add_assoc]

/-- Dropping bits that are zero leaves the other ones as they are.

**Proof sketch.** Induction on the number of zeros, which are dropped one by one. -/
lemma shiftRight_ofMantissa (m k : ℕ) :
    ExtendedMantissa.ofMantissaAndAccuracy (m * 2 ^ k) .exact >>> k =
      ExtendedMantissa.ofMantissaAndAccuracy m .exact := by
  induction k generalizing m with
  | zero =>
    rw [pow_zero, mul_one]
    rfl
  | succ k ih =>
    change ExtendedMantissa.shiftRightOne
      (ExtendedMantissa.ofMantissaAndAccuracy (m * 2 ^ (k + 1)) .exact >>> k) = _
    rw [pow_succ', ← mul_assoc, ih]
    simp [ExtendedMantissa.ofMantissaAndAccuracy, ExtendedMantissa.shiftRightOne]

/-- A mantissa of fifty-three bits with zeros behind it is shifted until the zeros are gone.

**Proof sketch.** The target exponent of the long mantissa is the one of the short one, so just the
zeros are dropped (`shiftRight_ofMantissa`). -/
lemma shiftToTargetExponent_eq (hlog : m.log2 = 52) (he : -1074 ≤ e) (k : ℕ) :
    shiftToTargetExponent Format.binary64 (m * 2 ^ k) (e - k) .exact =
      (ExtendedMantissa.ofMantissaAndAccuracy m .exact, e) := by
  have hmin : Format.binary64.minExponent = -1074 := rfl
  have hbits : Format.binary64.mantissaBits = 53 := rfl
  have hne : m ≠ 0 := by
    rintro rfl
    cases hlog
  have htarget : Format.binary64.targetExponent (totalExponent (m * 2 ^ k) (e - k)) = e := by
    simp only [Format.targetExponent, totalExponent, log2_mul_two_pow hne, hlog, hmin, hbits]
    omega
  have hshift : (e - (e - k)).toNat = k := by omega
  rw [shiftToTargetExponent, htarget, shiftToExponent]
  simp only [hshift, shiftRight_ofMantissa]
  congr 1
  omega

/-- A mantissa of fifty-three bits with zeros behind it is not changed by rounding. -/
lemma roundWithAccuracy_eq (sign : Sign) (hpos : 0 < m) (hlog : m.log2 = 52) (he : -1074 ≤ e)
    (k : ℕ) :
    roundWithAccuracy Format.binary64 sign (m * 2 ^ k) (e - k) .exact =
      .finite sign m e hpos := by
  have hrounded : (ExtendedMantissa.ofMantissaAndAccuracy m .exact).roundedMantissa = m := rfl
  -- the mantissa is shifted again after rounding, in case that it has got one more bit
  have hagain := shiftToTargetExponent_eq hlog he 0
  rw [pow_zero, mul_one, Int.natCast_zero, sub_zero] at hagain
  simp only [roundWithAccuracy, shiftToTargetExponent_eq hlog he k, hrounded, hagain]
  exact dif_neg hpos.ne'

/-- A whole number of fifty-three bits is a float: its mantissa gets zeros until it has all bits.

**Proof sketch.** The exponent that rounding aims at is that of a mantissa with all bits, so the
number is shifted up to there, and rounding it drops nothing. -/
lemma ofNat_eq (hpos : 0 < n) (h : n.log2 ≤ 52) :
    UnpackedFloat.ofNat Format.binary64 n =
      .finite .positive (n * 2 ^ (52 - n.log2)) (n.log2 - 52)
        (Nat.mul_pos hpos (Nat.two_pow_pos _)) := by
  have hmin : Format.binary64.minExponent = -1074 := rfl
  have hbits : Format.binary64.mantissaBits = 53 := rfl
  have hlog : (n * 2 ^ (52 - n.log2)).log2 = 52 := by
    rw [log2_mul_two_pow hpos.ne']
    omega
  have htarget : Format.binary64.targetExponent (totalExponent n 0) = n.log2 - 52 := by
    simp only [Format.targetExponent, totalExponent, hmin, hbits]
    omega
  have hshift : (0 - ((n.log2 : ℤ) - 52)).toNat = 52 - n.log2 := by omega
  have hexponent : (0 : ℤ) - (52 - n.log2 : ℕ) = n.log2 - 52 := by omega
  have hleast : (-1074 : ℤ) ≤ n.log2 - 52 := by omega
  have hround := roundWithAccuracy_eq .positive (Nat.mul_pos hpos (Nat.two_pow_pos _)) hlog hleast 0
  rw [pow_zero, mul_one, Int.natCast_zero, sub_zero] at hround
  have hcompare : compare (n : ℤ) 0 = .gt := Int.compare_eq_gt.2 (by omega)
  simp only [UnpackedFloat.ofNat, UnpackedFloat.ofInt, UnpackedFloat.normalize, hcompare,
    Int.toNat_natCast, UnpackedFloat.round, htarget, decreaseExponent, hshift, hexponent,
    Nat.shiftLeft_eq]
  exact hround

/-! ### Packing -/

/-- The sign is the first bit. -/
lemma ofBitVec_unpackSign (sign : Sign) (exponent : BitVec 11) (mantissa : BitVec 52) :
    Sign.ofBitVec (unpackSign (packComponents Format.binary64 sign exponent mantissa)) = sign := by
  have hbits : unpackSign (packComponents Format.binary64 sign exponent mantissa) =
      sign.toBitVec := by
    refine BitVec.eq_of_getLsbD_eq fun i hi => ?_
    obtain rfl : i = 0 := Nat.lt_one_iff.1 hi
    rw [unpackSign, packComponents, BitVec.getLsbD_cast, BitVec.getLsbD_extractLsb,
      BitVec.getLsbD_append, BitVec.getLsbD_append]
    rfl
  rw [hbits]
  cases sign <;> rfl

/-- The first bit of a mantissa is put back in front of those that are stored. -/
lemma toNat_append_mantissa (mantissa : BitVec 52) :
    (1#1 ++ mantissa).toNat = mantissa.toNat + 0x10000000000000 := by
  rw [BitVec.toNat_append, ← Nat.shiftLeft_add_eq_or_of_lt mantissa.isLt, Nat.shiftLeft_eq]
  exact Nat.add_comm _ _

/-- A number with a mantissa of fifty-three bits is packed and unpacked without being changed.

**Proof sketch.** The exponent fits in its eleven bits, and it is neither the one of infinity nor
that of subnormal numbers. The mantissa loses its leading bit and gets it back. -/
lemma unpack_pack_eq (hpos : 0 < m) (hlog : m.log2 = 52) (he : -1074 ≤ e) (he' : e ≤ 971) :
    UnpackedFloat.unpack Format.binary64
      (UnpackedFloat.pack Format.binary64 (.finite sign m e hpos)) = .finite sign m e hpos := by
  have hbias : Format.binary64.exponentBias = 1023 := rfl
  obtain ⟨hlow, hhigh⟩ := (Nat.log2_eq_iff hpos.ne').1 hlog
  have hroom : ¬ 2 ^ 11 ≤ (e + 1023 + 52).toNat + 1 := by omega
  have hvalue : (BitVec.ofNat 11 (e + 1023 + 52).toNat).toNat = (e + 1023 + 52).toNat := by
    rw [BitVec.toNat_ofNat]
    omega
  have hinfinity : BitVec.ofNat 11 (e + 1023 + 52).toNat ≠ -1#11 := by
    rw [← BitVec.toNat_inj.ne, hvalue]
    change (e + 1023 + 52).toNat ≠ 2047
    omega
  have hsubnormal : BitVec.ofNat 11 (e + 1023 + 52).toNat ≠ 0#11 := by
    rw [← BitVec.toNat_inj.ne, hvalue]
    change (e + 1023 + 52).toNat ≠ 0
    omega
  have hmantissa : (1#1 ++ BitVec.ofNat 52 m).toNat = m := by
    rw [toNat_append_mantissa, BitVec.toNat_ofNat]
    omega
  have hbits : 52 + 1 = Format.binary64.mantissaBits := rfl
  simp only [UnpackedFloat.pack, hbias, Int.cast_ofNat_Int, hlog]
  rw [if_neg hroom, if_pos hbits]
  simp only [UnpackedFloat.unpack, unpackExponent_packComponents, unpackMantissa_packComponents,
    ofBitVec_unpackSign, hbias]
  rw [if_neg hinfinity, if_neg hsubnormal]
  simp only [hvalue, hmantissa]
  congr 1
  omega

/-! ### Whole numbers -/

/-- The float nearest to a natural number of fifty-three bits is that number.

**Proof sketch.** The number becomes a float with all bits of its mantissa (`ofNat_eq`), which is
multiplied by one. In each step the mantissa has its leading bit in front, so no step rounds. -/
lemma unpack_ofNat (hpos : 0 < n) (h : n.log2 ≤ 52) :
    (Float.ofNat n).toModel.unpack = .finite .positive (n * 2 ^ (52 - n.log2)) (n.log2 - 52)
      (Nat.mul_pos hpos (Nat.two_pow_pos _)) := by
  have hlt : n < 2 ^ 53 := (Nat.log2_lt hpos.ne').1 (Nat.lt_succ_of_le h)
  have hmantissa : 0 < n * 2 ^ (52 - n.log2) := Nat.mul_pos hpos (Nat.two_pow_pos _)
  have hlog : (n * 2 ^ (52 - n.log2)).log2 = 52 := by
    rw [log2_mul_two_pow hpos.ne']
    omega
  have hword : n.toUInt64.toNat = n := Nat.mod_eq_of_lt (by omega)
  have hnumber : n.toUInt64.toFloat.toModel.unpack =
      .finite .positive (n * 2 ^ (52 - n.log2)) (n.log2 - 52) hmantissa := by
    change UnpackedFloat.unpack _
      (UnpackedFloat.pack _ (UnpackedFloat.ofNat _ n.toUInt64.toNat)) = _
    rw [hword, ofNat_eq hpos h]
    exact unpack_pack_eq hmantissa hlog (by omega) (by omega)
  -- the number is multiplied by a power of ten, which is one
  have hone : (Float.ofBits 0x3FF0000000000000).toModel.unpack =
      .finite .positive (2 ^ 52) (-52) (by decide) := rfl
  have hproduct : UnpackedFloat.mul Format.binary64 n.toUInt64.toFloat.toModel.unpack
      (Float.ofBits 0x3FF0000000000000).toModel.unpack =
        .finite .positive (n * 2 ^ (52 - n.log2)) (n.log2 - 52) hmantissa := by
    rw [hnumber, hone]
    exact roundWithAccuracy_eq _ hmantissa hlog (by omega) 52
  change (Float.ofScientific n false 0).toModel.unpack = _
  rw [Float.ofScientific, dif_pos ⟨hlt, by decide⟩]
  change UnpackedFloat.unpack _ (UnpackedFloat.pack _ (UnpackedFloat.mul Format.binary64
    n.toUInt64.toFloat.toModel.unpack (Float.ofBits 0x3FF0000000000000).toModel.unpack)) = _
  rw [hproduct]
  exact unpack_pack_eq hmantissa hlog (by omega) (by omega)

/-- A number with a mantissa of fifty-three bits has an opposite. -/
lemma unpack_neg {x : Float} {hpos : 0 < m} (hlog : m.log2 = 52) (he : -1074 ≤ e) (he' : e ≤ 971)
    (h : x.toModel.unpack = .finite sign m e hpos) :
    (Float.neg x).toModel.unpack = .finite (-sign) m e hpos := by
  change UnpackedFloat.unpack _ (UnpackedFloat.pack _ x.toModel.unpack.neg) = _
  rw [h]
  exact unpack_pack_eq hpos hlog he he'

/-- The sign of a whole number. -/
def signOf (n : ℤ) : Sign :=
  if n < 0 then .negative else .positive

/-- The float nearest to a whole number of fifty-three bits is that number.

**Proof sketch.** By the sign of the number. A negative one is unpacked like its opposite. -/
lemma unpack_ofInt {n : ℤ} (hne : n ≠ 0) (h : n.natAbs.log2 ≤ 52) :
    (Float.ofInt n).toModel.unpack = .finite (signOf n) (n.natAbs * 2 ^ (52 - n.natAbs.log2))
      (n.natAbs.log2 - 52) (Nat.mul_pos (Int.natAbs_pos.2 hne) (Nat.two_pow_pos _)) := by
  have hnat := unpack_ofNat (Int.natAbs_pos.2 hne) h
  cases n with
  | ofNat n => exact hnat
  | negSucc n =>
    have hlog : (n.succ * 2 ^ (52 - n.succ.log2)).log2 = 52 := by
      rw [log2_mul_two_pow n.succ_ne_zero]
      exact Nat.add_sub_cancel' h
    have hsign : signOf (Int.negSucc n) = .negative := if_pos (Int.negSucc_lt_zero n)
    rw [hsign]
    exact unpack_neg hlog (by omega) (by omega) hnat

/-- A number of fifty-three bits has its leading bit among them. -/
lemma log2_natAbs_le {n : ℤ} (hne : n ≠ 0) (h : n.natAbs < 2 ^ 53) : n.natAbs.log2 ≤ 52 :=
  Nat.le_of_lt_succ ((Nat.log2_lt (Int.natAbs_pos.2 hne).ne').2 h)

/-- Whole numbers of fifty-three bits have different nearest floats.

**Proof sketch.** Unpacked, such a number has a mantissa that starts with its own bits, and an
exponent that says how many they are. Zero is unpacked as zero. -/
theorem ofInt_inj {n m : ℤ} (hn : n.natAbs < 2 ^ 53) (hm : m.natAbs < 2 ^ 53) :
    Float.ofInt n = Float.ofInt m ↔ n = m := by
  have hzero : (Float.ofInt 0).toModel.unpack = .zero .positive := rfl
  constructor
  · intro h
    replace h : (Float.ofInt n).toModel.unpack = (Float.ofInt m).toModel.unpack := by rw [h]
    by_cases hn0 : n = 0 <;> by_cases hm0 : m = 0
    · rw [hn0, hm0]
    · rw [hn0, hzero, unpack_ofInt hm0 (log2_natAbs_le hm0 hm)] at h
      cases h
    · rw [hm0, hzero, unpack_ofInt hn0 (log2_natAbs_le hn0 hn)] at h
      cases h
    · rw [unpack_ofInt hn0 (log2_natAbs_le hn0 hn), unpack_ofInt hm0 (log2_natAbs_le hm0 hm)] at h
      obtain ⟨hsign, hmantissa, hexponent⟩ := UnpackedFloat.finite.inj h
      have hbits : n.natAbs.log2 = m.natAbs.log2 := by omega
      rw [hbits] at hmantissa
      have habs := Nat.eq_of_mul_eq_mul_right (Nat.two_pow_pos _) hmantissa
      unfold signOf at hsign
      split at hsign <;> split at hsign
      case isTrue.isFalse | isFalse.isTrue => cases hsign
      case isTrue.isTrue | isFalse.isFalse => omega
  · exact congrArg Float.ofInt

/-! ### Whole parts -/

/-- The mantissa is in the last fifty-two bits. -/
lemma toNat_unpackMantissa (bits : BitVec 64) :
    (@unpackMantissa Format.binary64 bits).toNat = bits.toNat % 0x10000000000000 := by
  change (bits.extractLsb 51 0).toNat = _
  rw [BitVec.extractLsb_toNat]
  rfl

/-- The exponent is in the eleven bits before the mantissa. -/
lemma toNat_unpackExponent (bits : BitVec 64) :
    (@unpackExponent Format.binary64 bits).toNat =
      bits.toNat / 0x10000000000000 % 0x800 := by
  change (bits.extractLsb 62 52).toNat = _
  rw [BitVec.extractLsb_toNat, Nat.shiftRight_eq_div_pow]

/-- The sign is the first bit.

**Proof sketch.** The bit is the quotient by the greatest power of two. -/
lemma ofBitVec_unpackSign_eq (bits : BitVec 64) :
    Sign.ofBitVec (@unpackSign Format.binary64 bits) =
      if 0x8000000000000000 ≤ bits.toNat then .negative else .positive := by
  have hlt := bits.isLt
  have hbit : (@unpackSign Format.binary64 bits).toNat = bits.toNat / 2 ^ 63 % 2 := by
    change (bits.extractLsb 63 63).toNat = _
    rw [BitVec.extractLsb_toNat, Nat.shiftRight_eq_div_pow]
  have hzero : @unpackSign Format.binary64 bits = 0#1 ↔
      ¬ 0x8000000000000000 ≤ bits.toNat := by
    rw [← BitVec.toNat_inj, hbit]
    change bits.toNat / 2 ^ 63 % 2 = 0 ↔ _
    omega
  rw [Sign.ofBitVec]
  simp only [hzero, ite_not]

/-- The exact value of a float that is finite and not zero is that of its unpacked form.

**Proof sketch.** Unpacking and the exact value take sign, exponent and mantissa from the same bits,
and both add the leading bit unless the exponent bits are zero. -/
lemma ofFloat_eq {x : Float} {hpos : 0 < m} (h : x.toModel.unpack = .finite sign m e hpos) :
    ∃ negative : Bool, Decimal.Binary.ofFloat x = ⟨negative, m, e⟩ ∧
      sign = if negative then .negative else .positive := by
  have hbias : Format.binary64.exponentBias = 1023 := rfl
  have hmantissa : _ = x.toBits.toNat % _ := toNat_unpackMantissa x.toBits.toBitVec
  have hexponent : _ = x.toBits.toNat / _ % _ := toNat_unpackExponent x.toBits.toBitVec
  change UnpackedFloat.unpack Format.binary64 x.toBits.toBitVec = _ at h
  simp only [UnpackedFloat.unpack, ofBitVec_unpackSign_eq, hbias] at h
  simp only [Decimal.Binary.ofFloat, ← hmantissa, ← hexponent]
  split at h
  case isTrue => split at h <;> cases h
  case isFalse =>
    split at h
    case isTrue hzero =>
      split at h
      case isTrue => cases h
      case isFalse =>
        obtain ⟨hsign, rfl, rfl⟩ := UnpackedFloat.finite.inj h
        refine ⟨decide (0x8000000000000000 ≤ x.toBits.toNat), ?_, by simpa using hsign.symm⟩
        rw [hzero]
        rfl
    case isFalse hnonzero =>
      obtain ⟨hsign, rfl, rfl⟩ := UnpackedFloat.finite.inj h
      have hne : (@unpackExponent Format.binary64 x.toBits.toBitVec).toNat ≠ 0 :=
        fun heq => hnonzero (BitVec.eq_of_toNat_eq heq)
      refine ⟨decide (0x8000000000000000 ≤ x.toBits.toNat), ?_, by simpa using hsign.symm⟩
      rw [if_neg hne, toNat_append_mantissa]
      congr 1
      omega

/-- The exact value of the float nearest to a whole number of fifty-three bits. -/
lemma ofFloat_ofInt {n : ℤ} (hne : n ≠ 0) (h : n.natAbs < 2 ^ 53) :
    Decimal.Binary.ofFloat (Float.ofInt n) =
      ⟨decide (n < 0), n.natAbs * 2 ^ (52 - n.natAbs.log2), n.natAbs.log2 - 52⟩ := by
  obtain ⟨negative, hvalue, hsign⟩ := ofFloat_eq (unpack_ofInt hne (log2_natAbs_le hne h))
  rw [hvalue]
  by_cases hn : n < 0
  · rw [signOf, if_pos hn] at hsign
    cases negative with
    | false => cases hsign
    | true => rw [decide_eq_true hn]
  · rw [signOf, if_neg hn] at hsign
    cases negative with
    | false => rw [decide_eq_false hn]
    | true => cases hsign

/-- A whole number of fifty-three bits is the whole part of its nearest float, which has no
fraction.

**Proof sketch.** The float has the mantissa of the number, shifted up, and an exponent that shifts
it down again by as much. -/
theorem truncate_ofInt {n : ℤ} (h : n.natAbs < 2 ^ 53) :
    Decimal.isWhole (Float.ofInt n) = true ∧ Decimal.truncate (Float.ofInt n) = n := by
  unfold Decimal.isWhole Decimal.truncate
  by_cases hne : n = 0
  · have hzero : Decimal.Binary.ofFloat (Float.ofInt 0) = ⟨false, 0, -1074⟩ := rfl
    rw [hne, hzero]
    simp [Decimal.Binary.isWhole, Decimal.Binary.truncate, Decimal.Binary.numerator,
      Decimal.Binary.withSign]
  have hlog := log2_natAbs_le hne h
  have hexponent : ((n.natAbs.log2 : ℤ) - 52).toNat = 0 := by omega
  have hpower : (-((n.natAbs.log2 : ℤ) - 52)).toNat = 52 - n.natAbs.log2 := by omega
  have hpos : 0 < 2 ^ (52 - n.natAbs.log2) := Nat.two_pow_pos _
  rw [ofFloat_ofInt hne h]
  simp only [Decimal.Binary.isWhole, Decimal.Binary.truncate, Decimal.Binary.numerator,
    Decimal.Binary.denominator, Decimal.Binary.withSign, hexponent, hpower, Nat.pow_eq, pow_zero,
    Nat.mul_one, Nat.mul_mod_left, beq_self_eq_true, Nat.mul_div_cancel _ hpos,
    decide_eq_true_eq, true_and]
  split <;> omega

end Cohort.Json.Number
