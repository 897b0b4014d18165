import Mathlib.Data.List.Induction
import Mathlib.Data.List.TakeDrop
import Mathlib.Data.List.TakeWhile
import Mathlib.Data.Option.Basic
import Mathlib.Tactic.Lemma
import Cohort.Instant.Printer
import Cohort.Instant.Reading
set_option relaxedAutoImplicit false
set_option autoImplicit false

/-!
# Parts of written instants

The parts of a text that names an instant are numbers of some digits, a year with or without a sign,
a fraction of a second and a zone. A part that was written is read again in front of anything that
does not go on with a digit.

## Main results

* `Cohort.Instant.readDigits?_padded` — a number is read again.
* `Cohort.Instant.readYear?_writeYear` — a year is read again.
* `Cohort.Instant.readFraction?_writeFraction` — a fraction is read again.
* `Cohort.Instant.nanos_lt_of_readFraction?`, `Cohort.Instant.offset_of_readOffset?` — which
  fractions and zones are read.
-/

namespace Cohort.Instant

/-! ### Numbers -/

section Digits

variable {width n : Nat}

/-- A padded number consists of zeros and of its digits. -/
lemma toList_padded (width n : Nat) : (padded width n).toList =
    List.replicate (width - (Nat.toDigits 10 n).length) '0' ++ Nat.toDigits 10 n := by
  rw [padded, String.toList_ofList]

/-- A padded number consists of digits. -/
lemma isDigit_of_mem_padded {c : Char} (h : c ∈ (padded width n).toList) : c.isDigit = true := by
  rw [toList_padded] at h
  rcases List.mem_append.1 h with h | h
  · rw [(List.mem_replicate.1 h).2]
    rfl
  · exact Nat.isDigit_of_mem_toDigits (by decide) (by decide) h

/-- A padded number is as long as its width or as its digits. -/
lemma length_padded (width n : Nat) :
    (padded width n).toList.length = max width (Nat.toDigits 10 n).length := by
  rw [toList_padded, List.length_append, List.length_replicate]
  omega

/-- Zeros in front do not change a number. -/
lemma ofDigits_padded (width n : Nat) : Decimal.ofDigits (padded width n).toList = n := by
  rw [toList_padded]
  change Nat.ofDigitChars 10 _ 0 = n
  rw [Nat.ofDigitChars_append, Nat.ofDigitChars_replicate_zero, Nat.mul_zero,
    Nat.ofDigitChars_ten_toDigits]

variable {least most : Nat} {c : Char} {rest : List Char}

/-- A number is read up to a character that is no digit.

**Proof sketch.** The digits are taken up to the character behind them, which is no digit even if
there is room for more. -/
lemma readDigits?_padded (hleast : least ≤ max width (Nat.toDigits 10 n).length)
    (hmost : max width (Nat.toDigits 10 n).length ≤ most) (hc : c.isDigit = false) :
    readDigits? least most ((padded width n).toList ++ c :: rest) = some (n, c :: rest) := by
  have hstop : ((c :: rest).take (most - (padded width n).toList.length)).takeWhile Char.isDigit =
      [] := by
    cases most - (padded width n).toList.length with
    | zero => rfl
    | succ room => simp [hc]
  have hdigits : (((padded width n).toList ++ c :: rest).take most).takeWhile Char.isDigit =
      (padded width n).toList := by
    rw [List.take_append, List.take_of_length_le (length_padded width n ▸ hmost),
      List.takeWhile_append_of_pos fun _ h => isDigit_of_mem_padded h, hstop, List.append_nil]
  have hlong : ¬ (padded width n).toList.length < least := by
    rw [length_padded]
    omega
  rw [readDigits?, hdigits, if_neg hlong, ofDigits_padded, List.drop_left]

/-- A number of one or two digits is written with two. -/
lemma length_two (h : n < 100) : max 2 (Nat.toDigits 10 n).length = 2 := by
  have hlength : (Nat.toDigits 10 n).length ≤ 2 :=
    (Nat.length_toDigits_le_iff (by decide) (by decide)).2 h
  omega

/-- A number of two digits is read where exactly two are expected. -/
lemma readDigits?_two (h : n < 100) (hc : c.isDigit = false) :
    readDigits? 2 2 ((padded 2 n).toList ++ c :: rest) = some (n, c :: rest) :=
  readDigits?_padded (Nat.le_of_eq (length_two h).symm) (Nat.le_of_eq (length_two h)) hc

/-- No digit is blank. -/
lemma isBlank_eq_false_of_isDigit (h : c.isDigit = true) : Text.isBlank c = false := by
  obtain ⟨hlow, hhigh⟩ : 48 ≤ c.toNat ∧ c.toNat ≤ 57 := Char.isDigit_iff_toNat.1 h
  simp only [Text.isBlank, Bool.or_eq_false_iff, Bool.and_eq_false_iff, decide_eq_false_iff_not,
    beq_eq_false_iff_ne]
  omega

/-- Nothing is trimmed where no blank stands in front. -/
lemma trimLeft_cons (h : Text.isBlank c = false) : Text.trimLeft (c :: rest) = c :: rest := by
  simp [Text.trimLeft, h]

/-- No blanks stand in front of a number. -/
lemma exists_toList_padded (hwidth : 0 < width) (n : Nat) :
    ∃ d ds, (padded width n).toList = d :: ds ∧ d.isDigit = true := by
  cases h : (padded width n).toList with
  | nil =>
    have hlength := length_padded width n
    rw [h] at hlength
    simp only [List.length_nil] at hlength
    omega
  | cons d ds => exact ⟨d, ds, rfl, isDigit_of_mem_padded (h ▸ List.mem_cons_self)⟩

/-- Nothing is trimmed in front of a padded number. -/
lemma trimLeft_padded (hwidth : 0 < width) :
    Text.trimLeft ((padded width n).toList ++ rest) = (padded width n).toList ++ rest := by
  obtain ⟨d, ds, hds, hd⟩ := exists_toList_padded hwidth n
  rw [hds, List.cons_append, trimLeft_cons (isBlank_eq_false_of_isDigit hd)]

/-- A number of two digits is read where one or two are expected. -/
lemma readPair?_two (h : n < 100) (hc : c.isDigit = false) :
    readPair? ((padded 2 n).toList ++ c :: rest) = some (n, c :: rest) := by
  have hleast : 1 ≤ max 2 (Nat.toDigits 10 n).length := by omega
  have hmost : max 2 (Nat.toDigits 10 n).length ≤ 2 := Nat.le_of_eq (length_two h)
  rw [readPair?, trimLeft_padded (by decide), readDigits?_padded hleast hmost hc]

/-- A number does not start with anything but a digit. -/
lemma readDigits?_eq_none {least most : Nat} {c : Char} {rest : List Char} (hleast : 0 < least)
    (hc : c.isDigit = false) : readDigits? least most (c :: rest) = none := by
  have hdigits : ((c :: rest).take most).takeWhile Char.isDigit = [] := by
    cases most with
    | zero => rfl
    | succ most => simp [hc]
  rw [readDigits?, hdigits]
  exact if_pos hleast

end Digits

/-! ### Years -/

section Year

variable {year : Int} {c : Char} {rest : List Char}

/-- A year that four digits hold has no sign. -/
lemma writeYear_unsigned (h : 0 ≤ year ∧ year ≤ 9999) : writeYear year = padded 4 year.toNat := by
  rw [writeYear, if_pos (by simpa using h)]

/-- Another year has a sign and at least four digits. -/
lemma writeYear_signed (h : ¬ (0 ≤ year ∧ year ≤ 9999)) :
    (writeYear year).toList = (if year < 0 then '-' else '+') :: (padded 4 year.natAbs).toList := by
  rw [writeYear, if_neg (by simpa using h), String.toList_append]
  split <;> rfl

/-- A number up to 9999 takes four places. -/
lemma length_four {n : Nat} (h : n ≤ 9999) : max 4 (Nat.toDigits 10 n).length = 4 := by
  have hlength : (Nat.toDigits 10 n).length ≤ 4 :=
    (Nat.length_toDigits_le_iff (by decide) (by decide)).2 (Nat.lt_succ_of_le h)
  omega

/-- A year is read with or without a sign.

**Proof sketch.** A year of four digits starts with a digit, and any other one with a sign, behind
which all digits are read. -/
lemma readYear?_writeYear (hc : c.isDigit = false) :
    readYear? ((writeYear year).toList ++ c :: rest) = some (year, c :: rest) := by
  by_cases h : 0 ≤ year ∧ year ≤ 9999
  · obtain ⟨d, ds, hds, hd⟩ := exists_toList_padded (by decide : 0 < 4) year.toNat
    have hminus : d ≠ '-' := by
      rintro rfl
      cases hd
    have hplus : d ≠ '+' := by
      rintro rfl
      cases hd
    have hlength := length_four (n := year.toNat) (by omega)
    have hread : readDigits? 1 4 (d :: ds ++ c :: rest) = some (year.toNat, c :: rest) :=
      hds ▸ readDigits?_padded (by omega) (Nat.le_of_eq hlength) hc
    have hyear : (year.toNat : Int) = year := Int.toNat_of_nonneg h.1
    rw [writeYear_unsigned h, readYear?, trimLeft_padded (by decide), hds]
    split
    case h_1 heq => exact absurd (List.cons.inj heq).1 hminus
    case h_2 heq => exact absurd (List.cons.inj heq).1 hplus
    case h_3 => simp only [hread, Option.map_some, hyear]
  · have hread : readDigits? 1 ((padded 4 year.natAbs).toList ++ c :: rest).length
        ((padded 4 year.natAbs).toList ++ c :: rest) = some (year.natAbs, c :: rest) := by
      refine readDigits?_padded (by omega) ?_ hc
      rw [List.length_append, length_padded]
      exact Nat.le_add_right _ _
    have hblank : Text.isBlank (if year < 0 then '-' else '+') = false := by split <;> rfl
    rw [writeYear_signed h, readYear?, List.cons_append, trimLeft_cons hblank]
    by_cases hneg : year < 0
    · have hyear : -(year.natAbs : Int) = year := by omega
      simp only [if_pos hneg, hread, Option.map_some, hyear]
    · have hyear : (year.natAbs : Int) = year := by omega
      simp only [if_neg hneg, hread, Option.map_some, hyear]

end Year

/-! ### Fractions -/

/-- The digits of a padded number end where a character follows that is no digit. -/
lemma splitDigits_padded {width n : Nat} {c : Char} {rest : List Char} (hc : c.isDigit = false) :
    Decimal.splitDigits ((padded width n).toList ++ c :: rest) =
      ((padded width n).toList, c :: rest) := by
  have hdigits : ∀ d ∈ (padded width n).toList, d.isDigit = true := fun _ h =>
    isDigit_of_mem_padded h
  rw [Decimal.splitDigits, List.span_eq_takeWhile_dropWhile,
    List.takeWhile_append_of_pos hdigits, List.dropWhile_append_of_pos hdigits]
  simp [hc]

/-- A fraction of some places is read as that part of a second. -/
lemma readFraction?_padded {width n : Nat} (hwidth : 0 < width)
    (hlength : max width (Nat.toDigits 10 n).length = width) (hplaces : width ≤ 9) :
    readFraction? ('.' :: ((padded width n).toList ++ ['Z'])) =
      some (n * Nat.pow 10 (9 - width), ['Z']) := by
  have hwidth' : (padded width n).toList.length = width := by rw [length_padded, hlength]
  have hkept : (padded width n).toList.take 9 = (padded width n).toList :=
    List.take_of_length_le (by omega)
  have hne : ¬ (padded width n).toList.isEmpty := by
    rw [List.isEmpty_iff_length_eq_zero]
    omega
  rw [readFraction?, splitDigits_padded rfl]
  simp only [hkept, if_neg hne, ofDigits_padded, hwidth']

/-- A fraction stands between its point and the sign of the zone. -/
lemma toList_point (s : String) : ("." ++ s).toList ++ ['Z'] = '.' :: (s.toList ++ ['Z']) := by
  rw [String.toList_append]
  rfl

/-- So many nanoseconds are read from as many places as they need. -/
lemma readFraction?_point {places value nanos : Nat} (hplaces : 0 < places ∧ places ≤ 9)
    (hvalue : value * Nat.pow 10 (9 - places) = nanos) (hlt : value < Nat.pow 10 places) :
    readFraction? (("." ++ padded places value).toList ++ ['Z']) = some (nanos, ['Z']) := by
  have hlength : (Nat.toDigits 10 value).length ≤ places :=
    (Nat.length_toDigits_le_iff (by decide) hplaces.1).2 hlt
  have hwidth : max places (Nat.toDigits 10 value).length = places := by omega
  rw [toList_point, readFraction?_padded hplaces.1 hwidth hplaces.2, hvalue]

/-- The fraction that is written is read.

**Proof sketch.** By the number of places that are written: none, three, six or nine. Reading them
multiplies by the power of ten that writing divided by. -/
lemma readFraction?_writeFraction (t : Instant) :
    readFraction? (t.writeFraction.toList ++ ['Z']) = some (t.nanos % nanosPerSecond, ['Z']) := by
  have hnanos : t.nanos % nanosPerSecond < 1000000000 := Nat.mod_lt _ (by decide)
  simp only [writeFraction]
  split
  case isTrue h =>
    rw [h]
    rfl
  case isFalse =>
    split
    case isTrue h =>
      exact readFraction?_point (by decide) (Nat.div_mul_cancel (Nat.dvd_of_mod_eq_zero h))
        (Nat.div_lt_of_lt_mul hnanos)
    case isFalse =>
      split
      case isTrue h =>
        exact readFraction?_point (by decide) (Nat.div_mul_cancel (Nat.dvd_of_mod_eq_zero h))
          (Nat.div_lt_of_lt_mul hnanos)
      case isFalse => exact readFraction?_point (by decide) (Nat.mul_one _) hnanos

/-- No digit follows the seconds. -/
lemma exists_writeFraction (t : Instant) :
    ∃ c rest, t.writeFraction.toList ++ ['Z'] = c :: rest ∧ c.isDigit = false := by
  simp only [writeFraction]
  split
  case isTrue => exact ⟨'Z', [], rfl, rfl⟩
  case isFalse =>
    split
    case isTrue => exact ⟨'.', _, toList_point _, rfl⟩
    case isFalse => split <;> exact ⟨'.', _, toList_point _, rfl⟩

/-- A number of some digits is less than the power of ten of as many zeros.

**Proof sketch.** Induction on the digits from the last one, which adds less than ten. -/
lemma ofDigits_lt {ds : List Char} (h : ∀ c ∈ ds, c.isDigit = true) :
    Decimal.ofDigits ds < Nat.pow 10 ds.length := by
  induction ds using List.reverseRecOn with
  | nil => decide
  | append_singleton ds c ih =>
    have hdigit : 48 ≤ c.toNat ∧ c.toNat ≤ 57 := Char.isDigit_iff_toNat.1 (h c (by simp))
    have hrest := ih fun d hd => h d (List.mem_append_left _ hd)
    have hvalue : Decimal.ofDigits (ds ++ [c]) = 10 * Decimal.ofDigits ds + (c.toNat - 48) := by
      simp [Decimal.ofDigits, List.foldl_append]
    have hpower : Nat.pow 10 (ds ++ [c]).length = Nat.pow 10 ds.length * 10 := by
      rw [List.length_append]
      rfl
    rw [hvalue, hpower]
    omega

/-- A fraction is less than a second.

**Proof sketch.** At most nine digits count, so the number is below the power of ten that the
missing places stand for, times that for the digits. -/
lemma nanos_lt_of_readFraction? {cs rest : List Char} {nanos : Nat}
    (h : readFraction? cs = some (nanos, rest)) : nanos < nanosPerSecond := by
  unfold readFraction? at h
  split at h
  case h_1 cs =>
    dsimp only at h
    split at h
    case isTrue => cases h
    case isFalse =>
      obtain ⟨rfl, -⟩ := Prod.mk.inj (Option.some.inj h)
      have hdigits : ∀ c ∈ (Decimal.splitDigits cs).1.take 9, c.isDigit = true := by
        intro c hc
        rw [Decimal.splitDigits, List.span_eq_takeWhile_dropWhile] at hc
        exact List.mem_takeWhile_imp (List.mem_of_mem_take hc)
      have hplaces : ((Decimal.splitDigits cs).1.take 9).length ≤ 9 := by
        rw [List.length_take]
        omega
      have hpower := Nat.pow_add 10 ((Decimal.splitDigits cs).1.take 9).length
        (9 - ((Decimal.splitDigits cs).1.take 9).length)
      rw [Nat.add_sub_cancel' hplaces] at hpower
      exact (Nat.mul_lt_mul_of_pos_right (ofDigits_lt hdigits) (Nat.pow_pos (by decide))).trans_eq
        hpower.symm
  case h_2 =>
    obtain ⟨rfl, -⟩ := Prod.mk.inj (Option.some.inj h)
    decide

/-! ### Marks and zones -/

/-- A mark that is not blank is skipped. -/
lemma skipMark?_cons {c : Char} {rest : List Char} (h : Text.isBlank c = false) :
    skipMark? c (c :: rest) = some rest := by
  rw [skipMark?, trimLeft_cons h, skipChar?, if_pos (beq_self_eq_true c)]

/-- A zone is ahead by whole minutes.

**Proof sketch.** The zone is zero, or hours and minutes with a sign. -/
lemma offset_of_readOffset? {skipColon? : List Char → Option (List Char)} {cs rest : List Char}
    {offset : Int} (h : readOffset? skipColon? cs = some (offset, rest)) : offset % 60 = 0 := by
  unfold readOffset? at h
  split at h
  case h_2 => cases h
  case h_1 c cs =>
    split at h
    case isTrue =>
      obtain ⟨rfl, -⟩ := Prod.mk.inj (Option.some.inj h)
      rfl
    case isFalse =>
      split at h
      case isFalse => cases h
      case isTrue =>
        simp only [Option.bind_eq_bind, Option.bind_eq_some_iff, Option.pure_def,
          Option.some.injEq, Prod.mk.injEq] at h
        obtain ⟨⟨hours, -⟩, -, -, -, ⟨minutes, -⟩, -, -, -, rfl, -⟩ := h
        split <;> omega

end Cohort.Instant
