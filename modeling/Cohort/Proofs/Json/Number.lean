import Mathlib
import Cohort.Json.Coercion
set_option relaxedAutoImplicit false
set_option autoImplicit false

/-!
# Whole numbers as floats

A whole number of 64 bits is far from the greatest float, so the float nearest to it is finite. The
bounds below are rough: rounding does not raise the exponent of a binary number by more than twice
the bits of its mantissa, and finite floats have exponents up to 971.

## Main definitions

* `Cohort.Json.Number.Within` — zero, or a binary number with a bounded mantissa and exponent.

## Main results

* `Cohort.Json.Number.isFinite_toFloat` — the float nearest to a JSON number is finite.
* `Cohort.Json.isFinite_of_toNumber?` — so is what is read of a value as a number.
-/

namespace Cohort.Json.Number

open Float.Model Float.Model.UnpackedFloat

/-- Zero, or a number with so many bits of mantissa at most and an exponent up to a bound. -/
inductive Within (bits : Nat) (bound : Int) : UnpackedFloat → Prop
  | zero (sign : Sign) : Within bits bound (.zero sign)
  | finite {sign : Sign} {mantissa : Nat} {exponent : Int} (pos : 0 < mantissa)
      (mantissa_lt : mantissa < Nat.pow 2 bits) (exponent_le : exponent ≤ bound) :
      Within bits bound (.finite sign mantissa exponent pos)

variable {bits : Nat} {bound : Int} {f g : UnpackedFloat}

/-- A number within bounds is finite. -/
lemma Within.isFinite (h : Within bits bound f) : f.isFinite = true := by
  cases h with
  | zero | finite => rfl

/-- A number within a bound is within a greater one. -/
lemma Within.mono {bound' : Int} (h : Within bits bound f) (hbound : bound ≤ bound') :
    Within bits bound' f := by
  cases h with
  | zero sign => exact .zero sign
  | finite pos hmantissa hexponent => exact .finite pos hmantissa (Int.le_trans hexponent hbound)

/-- The opposite of a number is within the same bounds. -/
lemma Within.neg (h : Within bits bound f) : Within bits bound f.neg := by
  cases h with
  | zero sign => exact .zero (-sign)
  | finite pos hmantissa hexponent => exact .finite pos hmantissa hexponent

/-! ### Rounding -/

/-- Bits that are dropped are divided off. -/
lemma mantissa_shiftRight (em : ExtendedMantissa) (n : Nat) :
    (em >>> n).mantissa = em.mantissa / 2 ^ n := by
  induction n with
  | zero => exact (Nat.div_one _).symm
  | succ n ih =>
    change (em >>> n).mantissa / 2 = _
    rw [ih, Nat.div_div_eq_div_mul, Nat.pow_succ]

/-- Rounding does not make a mantissa less. -/
lemma le_roundedMantissa (em : ExtendedMantissa) : em.mantissa ≤ em.roundedMantissa := by
  obtain ⟨mantissa, round, sticky⟩ := em
  cases round <;> cases sticky <;>
    simp only [ExtendedMantissa.roundedMantissa, ExtendedMantissa.accuracy,
      Accuracy.roundToNearestEven] <;> omega

/-- It adds one at most. -/
lemma roundedMantissa_le (em : ExtendedMantissa) : em.roundedMantissa ≤ em.mantissa + 1 := by
  obtain ⟨mantissa, round, sticky⟩ := em
  have hmod := Nat.mod_lt mantissa (by decide : 0 < 2)
  cases round <;> cases sticky <;>
    simp only [ExtendedMantissa.roundedMantissa, ExtendedMantissa.accuracy,
      Accuracy.roundToNearestEven] <;> omega

/-- A number below a power of two has its leading bit before that of the power. -/
lemma log2_le_of_lt {n : Nat} (h : n < Nat.pow 2 (bits + 1)) : n.log2 ≤ bits := by
  by_cases hn : n = 0
  · rw [hn, Nat.log2_zero]
    exact Nat.zero_le _
  · exact Nat.le_of_lt_succ ((Nat.log2_lt hn).2 h)

/-- The exponent is raised by the bits of the mantissa at most. -/
lemma shiftToTargetExponent_le {mantissa : Nat} {exponent : Int}
    (hmantissa : mantissa < Nat.pow 2 (bits + 1)) (hexponent : exponent ≤ bound)
    (hbound : -1074 ≤ bound) :
    (shiftToTargetExponent Format.binary64 mantissa exponent .exact).2 ≤ bound + bits := by
  have hlog := log2_le_of_lt hmantissa
  have hmin : Format.binary64.minExponent = -1074 := rfl
  have hbits : Format.binary64.mantissaBits = 53 := rfl
  simp only [shiftToTargetExponent, shiftToExponent, Format.targetExponent, totalExponent, hmin,
    hbits]
  omega

/-- No bits are added to the mantissa. -/
lemma mantissa_shiftToTargetExponent_le (mantissa : Nat) (exponent : Int) :
    (shiftToTargetExponent Format.binary64 mantissa exponent .exact).1.mantissa ≤ mantissa := by
  rw [shiftToTargetExponent, shiftToExponent, mantissa_shiftRight]
  exact Nat.div_le_self _ _

/-- Rounding raises the exponent by twice the bits of the mantissa at most.

**Proof sketch.** The mantissa is shifted, rounded and shifted once more. Each shift drops bits only
and raises the exponent by as many, and rounding adds one at most. -/
lemma within_roundWithAccuracy (sign : Sign) {mantissa : Nat} {exponent : Int}
    (hmantissa : mantissa < Nat.pow 2 bits) (hexponent : exponent ≤ bound)
    (hbound : -1074 ≤ bound) :
    Within (bits + 1) (bound + 2 * bits)
      (roundWithAccuracy Format.binary64 sign mantissa exponent .exact) := by
  have hdouble : Nat.pow 2 (bits + 1) = Nat.pow 2 bits * 2 := rfl
  have hroom : mantissa < Nat.pow 2 (bits + 1) := by omega
  have hfirst := shiftToTargetExponent_le hroom hexponent hbound
  have hkept := mantissa_shiftToTargetExponent_le mantissa exponent
  have hrounded := roundedMantissa_le
    (shiftToTargetExponent Format.binary64 mantissa exponent .exact).1
  simp only [roundWithAccuracy]
  generalize shiftToTargetExponent Format.binary64 mantissa exponent .exact = first at *
  have hroom' : first.1.roundedMantissa < Nat.pow 2 (bits + 1) := by omega
  have hsecond := shiftToTargetExponent_le hroom' hfirst (by omega)
  have hkept' := mantissa_shiftToTargetExponent_le first.1.roundedMantissa first.2
  split
  case isTrue => exact .zero sign
  case isFalse => exact .finite _ (by omega) (by omega)

/-- A whole number of a float's digits is rounded without its bits being changed.

**Proof sketch.** The number is shifted up until its mantissa has all bits, which is by fifty-two
places at most, and then rounded. -/
lemma within_ofNat {n : Nat} (h : n < Nat.pow 2 53) :
    Within 106 210 (UnpackedFloat.ofNat Format.binary64 n) := by
  have hmin : Format.binary64.minExponent = -1074 := rfl
  have hbits : Format.binary64.mantissaBits = 53 := rfl
  simp only [UnpackedFloat.ofNat, UnpackedFloat.ofInt, UnpackedFloat.normalize]
  split
  case h_1 hneg =>
    have := Int.compare_eq_lt.1 hneg
    omega
  case h_2 => exact .zero _
  case h_3 =>
    have hshift : (0 - Format.binary64.targetExponent (totalExponent n 0)).toNat ≤ 52 := by
      simp only [Format.targetExponent, totalExponent, hmin, hbits]
      omega
    have hmantissa : n <<< (0 - Format.binary64.targetExponent (totalExponent n 0)).toNat <
        Nat.pow 2 105 := by
      have hpower : Nat.pow 2 105 = Nat.pow 2 53 * Nat.pow 2 52 := rfl
      rw [Nat.shiftLeft_eq, hpower]
      exact Nat.mul_lt_mul_of_lt_of_le h (Nat.pow_le_pow_right (by decide) hshift) (by decide)
    simp only [UnpackedFloat.round, decreaseExponent, Int.toNat_natCast]
    exact @within_roundWithAccuracy 105 0 _ _ _ hmantissa (by omega) (by decide)

/-- Products.

**Proof sketch.** A product with zero is zero. Otherwise the mantissas are multiplied and the
exponents are added, and the result is rounded. -/
lemma Within.mul {bits' : Nat} {bound' : Int} (hf : Within bits bound f)
    (hg : Within bits' bound' g) (hbound : -1074 ≤ bound + bound') :
    Within (bits + bits' + 1) (bound + bound' + 2 * (bits + bits'))
      (UnpackedFloat.mul Format.binary64 f g) := by
  cases hf with
  | zero =>
    cases hg with
    | zero | finite => exact .zero _
  | @finite sign _ _ pos hmantissa hexponent =>
    cases hg with
    | zero => exact .zero _
    | @finite sign' _ _ pos' hmantissa' hexponent' =>
      have hproduct := Nat.lt_of_lt_of_eq (Nat.mul_lt_mul'' hmantissa hmantissa')
        (Nat.pow_add 2 bits bits').symm
      have hrounded := within_roundWithAccuracy (sign * sign') hproduct
        (Int.add_le_add hexponent hexponent') hbound
      rw [Int.natCast_add] at hrounded
      exact hrounded

/-! ### Packing -/

/-- What is unpacked from parts that are not those of an infinity. -/
lemma within_unpack_packComponents {sign : Sign} {exponent : BitVec 11} {mantissa : BitVec 52}
    (hfinite : exponent ≠ -1#_) (hexponent : (exponent.toNat : Int) - 1075 ≤ bound)
    (hlow : -1074 ≤ bound) :
    Within 53 bound (UnpackedFloat.unpack Format.binary64
      (packComponents Format.binary64 sign exponent mantissa)) := by
  simp only [UnpackedFloat.unpack, unpackExponent_packComponents, unpackMantissa_packComponents]
  rw [if_neg hfinite]
  split
  case isTrue hzero =>
    split
    case isTrue => exact .zero _
    case isFalse =>
      have hmantissa : mantissa.toNat < Nat.pow 2 53 :=
        Nat.lt_of_lt_of_le mantissa.isLt (Nat.pow_le_pow_right (by decide) (by decide))
      refine .finite _ hmantissa ?_
      rw [hzero]
      exact hlow
  case isFalse => exact .finite _ (1#1 ++ mantissa).isLt hexponent

/-- A number that is packed and unpacked has few bits, and its exponent stays within the bound.

**Proof sketch.** The exponent fits in its bits, so nothing becomes infinite. A number with fewer
bits is packed with the least exponent, which is within the bound. -/
lemma Within.unpack_pack (h : Within bits bound f) (hlow : -1074 ≤ bound) (hhigh : bound ≤ 971) :
    Within 53 bound
      (UnpackedFloat.unpack Format.binary64 (UnpackedFloat.pack Format.binary64 f)) := by
  have hbias : Format.binary64.exponentBias = 1023 := rfl
  have hzero : ((0#11).toNat : Int) - 1075 ≤ bound := Int.le_trans (by decide) hlow
  cases h with
  | zero => exact within_unpack_packComponents (by decide) hzero hlow
  | @finite sign m e pos _ hexponent =>
    have hroom : ¬ 2 ^ 11 ≤ (e + 1023 + 52).toNat + 1 := by omega
    have hvalue : (BitVec.ofNat 11 (e + 1023 + 52).toNat).toNat = (e + 1023 + 52).toNat := by
      rw [BitVec.toNat_ofNat]
      omega
    have hfinite : BitVec.ofNat 11 (e + 1023 + 52).toNat ≠ -1#11 := by
      intro heq
      have hlast : (e + 1023 + 52).toNat = 2047 := by
        rw [← hvalue, heq]
        rfl
      omega
    simp only [UnpackedFloat.pack, hbias, Int.cast_ofNat_Int]
    rw [if_neg hroom]
    split
    case isTrue =>
      refine within_unpack_packComponents hfinite ?_ hlow
      rw [hvalue]
      omega
    case isFalse => exact within_unpack_packComponents (by decide) hzero hlow

/-! ### Whole numbers -/

/-- A float that stands for a number with an exponent up to a bound. -/
def HasBound (bound : Int) (x : Float) : Prop :=
  ∃ (bits : Nat) (f : UnpackedFloat), x.toModel = Float.Model.pack f ∧ Within bits bound f

/-- A float with a bound is within it, with all bits of its format. -/
lemma HasBound.unpack {x : Float} (h : HasBound bound x) (hlow : -1074 ≤ bound)
    (hhigh : bound ≤ 971) : Within 53 bound x.toModel.unpack := by
  obtain ⟨bits, f, hx, hf⟩ := h
  rw [hx]
  exact hf.unpack_pack hlow hhigh

/-- The float nearest to a whole number of at most 64 bits.

**Proof sketch.** A number with the digits of a float is multiplied by one, which is a power of ten.
Any other number is multiplied by that power before it is rounded. -/
lemma hasBound_ofNat {n : Nat} (h : n < Nat.pow 2 65) : HasBound 370 (Float.ofNat n) := by
  change HasBound 370 (Float.ofScientific n false 0)
  rw [Float.ofScientific]
  split
  -- a small number is converted and multiplied by one
  case isTrue hsmall =>
    have hone : (Float.ofBits 0x3FF0000000000000).toModel.unpack =
        .finite .positive 4503599627370496 (-52) (by decide) := rfl
    have hfactor : Within 53 (-52) (Float.ofBits 0x3FF0000000000000).toModel.unpack := by
      rw [hone]
      exact .finite _ (by decide) (by decide)
    have hnumber : HasBound 210 n.toUInt64.toFloat :=
      ⟨106, _, rfl, within_ofNat (Nat.lt_of_le_of_lt (Nat.mod_le n _) hsmall.1)⟩
    exact ⟨_, _, rfl, (hnumber.unpack (by decide) (by decide)).mul hfactor (by decide)⟩
  -- a large one is a mantissa with fifty-three zeros behind it, times one
  case isFalse hlarge =>
    have hzero : ¬ n = 0 := fun hzero => hlarge (by rw [hzero]; decide)
    have hshifted : n <<< 53 < Nat.pow 2 118 := by
      have hpower : Nat.pow 2 118 = Nat.pow 2 65 * Nat.pow 2 53 := rfl
      rw [Nat.shiftLeft_eq, hpower]
      exact Nat.mul_lt_mul_of_pos_right h (Nat.pow_pos (by decide))
    have hpos : 0 < n <<< 53 := by
      rw [Nat.shiftLeft_eq]
      exact Nat.mul_pos (Nat.pos_of_ne_zero hzero) (by decide)
    have hnumber : Within 118 (-53) (.finite .positive (n <<< 53) (-53) hpos) :=
      .finite hpos hshifted (by decide)
    have hfactor : Within 1 0 (.finite .positive 1 0 (by decide)) :=
      .finite _ (by decide) (by decide)
    have hlow : ¬ (0 : Int) < -((2 ^ Format.binary64.exponentBits : Int) + n.log2) := by
      have hpower : (2 ^ Format.binary64.exponentBits : Int) = 2048 := rfl
      omega
    have hvalue : UnpackedFloat.ofScientific Format.binary64 n 0 =
        UnpackedFloat.mul Format.binary64 (.finite .positive (n <<< 53) (-53) hpos)
          (.finite .positive 1 0 (by decide)) := by
      rw [UnpackedFloat.ofScientific, dif_neg hzero, if_neg (by decide), if_neg hlow,
        if_pos (by decide)]
      rfl
    have hproduct := hnumber.mul hfactor (by decide)
    rw [← hvalue] at hproduct
    exact ⟨118 + 1 + 1, UnpackedFloat.ofScientific Format.binary64 n 0, rfl,
      hproduct.mono (by decide)⟩

/-- The float nearest to a JSON number is finite.

**Proof sketch.** A whole number of 64 bits is packed from a mantissa and an exponent within bounds
that leave room for it. -/
theorem isFinite_toFloat (n : Number) : n.toFloat.isFinite = true := by
  cases n with
  | float _ hfinite => exact hfinite
  | integer value hrange =>
    change (Float.ofInt value).isFinite = true
    have hbits : Nat.pow 2 65 = 0x20000000000000000 := rfl
    cases value with
    | ofNat n =>
      have hlt : n < 0x10000000000000000 := Int.ofNat_lt.1 hrange.2
      have hn := hasBound_ofNat (n := n) (by omega)
      exact (hn.unpack (by decide) (by decide)).isFinite
    | negSucc n =>
      have hn := hasBound_ofNat (n := n.succ) (by omega)
      have hopposite : HasBound 370 (Float.neg (Float.ofNat n.succ)) :=
        ⟨53, _, rfl, (hn.unpack (by decide) (by decide)).neg⟩
      exact (hopposite.unpack (by decide) (by decide)).isFinite

end Cohort.Json.Number

namespace Cohort.Json

/-- What is read as a number is finite. -/
lemma isFinite_of_toNumber? {v : Json} {x : Float} (h : v.toNumber? = some x) :
    x.isFinite = true := by
  cases v with
  | number n =>
    cases h
    exact n.isFinite_toFloat
  | string s =>
    simp only [toNumber?, numberOfText?, Decimal.readFloat?, Option.bind_eq_bind,
      Option.bind_eq_some_iff] at h
    obtain ⟨l, -, u, hguard, hx⟩ := h
    cases hx
    simpa using hguard
  | null | bool | array | object => cases h

end Cohort.Json
