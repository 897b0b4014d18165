import Mathlib.Data.List.TakeWhile
import Mathlib.Tactic.FieldSimp
import Cohort.Decimal.Layout
import Cohort.Decimal.Reading
import Cohort.Proofs.Decimal.Interval
import Cohort.Proofs.Decimal.Order
set_option relaxedAutoImplicit false
set_option autoImplicit false

/-!
# Reading floats that were written

However the digits of a float are laid out, they are read as a literal with the sign of the float
and with the number that was chosen for it. So two floats that are not the same have different texts
in every layout.

## Main definitions

* `Cohort.Decimal.Literal.Spelled` — a text spells a literal, its sign aside.
* `Cohort.Decimal.Binary.chosen` — the number that is written for a float.

## Main results

* `Cohort.Decimal.Layout.readLiteral?_write` — what is read of a float.
* `Cohort.Decimal.Layout.write_inj` — a finite float is identified by its text.
-/

namespace Cohort.Decimal

/-! ### Digits -/

section Digits

variable {ds rest : List Char}

/-- The digits of a number denote it. -/
lemma ofDigits_toDigits (n : ℕ) : ofDigits (Nat.toDigits 10 n) = n :=
  Nat.ofDigitChars_ten_toDigits

/-- The digits of a number are decimal digits. -/
lemma isDigit_of_mem_toDigits {n : ℕ} {c : Char} (h : c ∈ Nat.toDigits 10 n) : c.isDigit = true :=
  Nat.isDigit_of_mem_toDigits (by decide) (by decide) h

/-- Digits that follow move those before them up by as many places. -/
lemma ofDigits_append (ds ds' : List Char) :
    ofDigits (ds ++ ds') = 10 ^ ds'.length * ofDigits ds + ofDigits ds' := by
  change Nat.ofDigitChars 10 _ 0 = _
  rw [Nat.ofDigitChars_append, Nat.ofDigitChars_eq_ofDigitChars_zero]
  rfl

/-- Zeros denote zero. -/
lemma ofDigits_zeros (n : ℕ) : ofDigits (List.replicate n '0') = 0 := by
  change Nat.ofDigitChars 10 _ 0 = 0
  rw [Nat.ofDigitChars_replicate_zero, Nat.mul_zero]

/-- Zeros in front do not change a number. -/
lemma ofDigits_zeros_append (n : ℕ) (ds : List Char) :
    ofDigits (List.replicate n '0' ++ ds) = ofDigits ds := by
  rw [ofDigits_append, ofDigits_zeros, Nat.mul_zero, Nat.zero_add]

/-- Zeros behind make a number greater by as many powers of ten. -/
lemma ofDigits_append_zeros (n : ℕ) (ds : List Char) :
    (ofDigits (ds ++ List.replicate n '0') : ℚ) = ofDigits ds * 10 ^ n := by
  rw [ofDigits_append, ofDigits_zeros, List.length_replicate]
  push_cast
  ring

/-- Zeros are digits. -/
lemma isDigit_of_mem_zeros {n : ℕ} {c : Char} (h : c ∈ List.replicate n '0') :
    c.isDigit = true := by
  rw [(List.mem_replicate.1 h).2]
  rfl

/-- Digits are split off in front of anything that does not go on with one. -/
lemma splitDigits_append (hds : ∀ c ∈ ds, c.isDigit = true)
    (hrest : ∀ c ∈ rest.head?, c.isDigit = false) : splitDigits (ds ++ rest) = (ds, rest) := by
  have hstop : rest.takeWhile Char.isDigit = [] ∧ rest.dropWhile Char.isDigit = rest := by
    cases rest with
    | nil => exact ⟨rfl, rfl⟩
    | cons c cs => simp [hrest c rfl]
  rw [splitDigits, List.span_eq_takeWhile_dropWhile, List.takeWhile_append_of_pos hds,
    List.dropWhile_append_of_pos hds, hstop.1, hstop.2, List.append_nil]

end Digits

/-! ### Literals -/

/-- The end of a literal: nothing, or a power of ten with the sign of its exponent. -/
inductive Power : List Char → ℤ → Prop
  /-- There is no power of ten. -/
  | absent : Power [] 0
  /-- There is one. -/
  | present (e : ℤ) :
    Power ('e' :: (if e < 0 then '-' else '+') :: Nat.toDigits 10 e.natAbs) e

/-- A point with the digits after it, if there are any. -/
def point (fraction : List Char) : List Char :=
  if fraction = [] then [] else '.' :: fraction

namespace Literal

variable {l : Literal} {text : List Char}

/-- A text spells a literal without its sign. -/
structure Spelled (l : Literal) (text : List Char) : Prop where
  /-- The digits stand around the point, and the power of ten comes last. -/
  parts : ∃ power, text = l.whole ++ (point l.fraction ++ power) ∧ Power power l.exponent
  /-- There is a digit before the point. -/
  whole_ne_nil : l.whole ≠ []
  /-- There are only digits before the point. -/
  isDigit_whole : ∀ c ∈ l.whole, c.isDigit = true
  /-- There are only digits after the point. -/
  isDigit_fraction : ∀ c ∈ l.fraction, c.isDigit = true

/-- A character of a written number. -/
def IsNumeral (c : Char) : Prop :=
  c.isDigit = true ∨ c ∈ ['-', '+', '.', 'e']

/-- What spells a literal consists of characters of numbers.

**Proof sketch.** A spelled literal is digits, a point with digits behind it, and a power of ten,
and each of the parts is gone through. -/
lemma Spelled.isNumeral (h : l.Spelled text) : ∀ c ∈ text, IsNumeral c := by
  obtain ⟨power, htext, hpower⟩ := h.parts
  have hend : ∀ c ∈ power, IsNumeral c := by
    generalize l.exponent = e at hpower
    cases hpower with
    | absent => nofun
    | present =>
      intro c hc
      rcases List.mem_cons.1 hc with rfl | hc
      · exact .inr (by decide)
      · rcases List.mem_cons.1 hc with rfl | hc
        · refine .inr ?_
          split <;> decide
        · exact .inl (Nat.isDigit_of_mem_toDigits (by decide) (by decide) hc)
  have hpoint : ∀ c ∈ point l.fraction, IsNumeral c := by
    unfold point
    split
    case isTrue => nofun
    case isFalse =>
      intro c hc
      rcases List.mem_cons.1 hc with rfl | hc
      · exact .inr (by decide)
      · exact .inl (h.isDigit_fraction c hc)
  intro c hc
  rw [htext, List.mem_append, List.mem_append] at hc
  rcases hc with hc | hc | hc
  · exact .inl (h.isDigit_whole c hc)
  · exact hpoint c hc
  · exact hend c hc

/-- A power of ten is read again.

**Proof sketch.** Behind the letter and the sign stand the digits of the power, up to the end. -/
lemma readExponent?_power {power : List Char} {e : ℤ} (h : Power power e) :
    readExponent? power = some e := by
  cases h with
  | absent => rfl
  | present =>
    have hdigits : ∀ c ∈ Nat.toDigits 10 e.natAbs, c.isDigit = true := fun _ hc =>
      Nat.isDigit_of_mem_toDigits (by decide) (by decide) hc
    have hsplit : splitDigits (Nat.toDigits 10 e.natAbs) = (Nat.toDigits 10 e.natAbs, []) := by
      have hsplit : splitDigits (Nat.toDigits 10 e.natAbs ++ []) = _ :=
        splitDigits_append hdigits nofun
      rwa [List.append_nil] at hsplit
    have hvalue := ofDigits_toDigits e.natAbs
    have hlength : 0 < (Nat.toDigits 10 e.natAbs).length := Nat.length_toDigits_pos
    generalize Nat.toDigits 10 e.natAbs = ds at *
    cases ds with
    | nil => exact absurd hlength (Nat.lt_irrefl 0)
    | cons d ds =>
      by_cases hnegative : e < 0
      · have hexponent : -(e.natAbs : ℤ) = e := by omega
        rw [if_pos hnegative]
        simp only [readExponent?, splitSign, hsplit, hvalue]
        exact congrArg some hexponent
      · have hexponent : (e.natAbs : ℤ) = e := by omega
        rw [if_neg hnegative]
        simp only [readExponent?, splitSign, hsplit, hvalue]
        exact congrArg some hexponent

/-- No power of ten begins with a digit or a point. -/
lemma head?_power {power : List Char} {e : ℤ} (h : Power power e) :
    ∀ c ∈ power.head?, c.isDigit = false ∧ c ≠ '.' := by
  cases h with
  | absent => nofun
  | present =>
    rintro c hc
    obtain rfl := Option.some.inj hc
    decide

/-- A literal is read again behind its sign.

**Proof sketch.** The sign is told from the first digit. The digits before the point are split off,
then those behind it, and the power is what is left. -/
lemma Spelled.readLiteral? (h : l.Spelled text) :
    readLiteral? ((if l.negative then ['-'] else []) ++ text) = some l := by
  obtain ⟨power, htext, hpower⟩ := h.parts
  have hstop := head?_power hpower
  have hsign : splitSign ((if l.negative then ['-'] else []) ++ text) = (l.negative, text) := by
    cases hnegative : l.negative with
    | true => rfl
    | false =>
      obtain ⟨c, cs, hwhole⟩ := List.exists_cons_of_ne_nil h.whole_ne_nil
      have hdigit : c.isDigit = true := h.isDigit_whole c (by rw [hwhole]; exact List.mem_cons_self)
      -- a text without a sign starts with a digit, which is not taken for one
      rw [htext, hwhole, List.cons_append]
      unfold splitSign
      split
      case h_1 hminus =>
        obtain rfl := (List.cons.inj hminus).1
        cases hdigit
      case h_2 hplus =>
        obtain rfl := (List.cons.inj hplus).1
        cases hdigit
      case h_3 => rfl
  have hwhole : splitDigits text = (l.whole, point l.fraction ++ power) := by
    rw [htext]
    apply splitDigits_append h.isDigit_whole
    unfold point
    split
    case isTrue => exact fun c hc => (hstop c hc).1
    case isFalse =>
      rintro c hc
      obtain rfl := Option.some.inj hc
      rfl
  have hfraction : splitFraction (point l.fraction ++ power) = (l.fraction, power) := by
    unfold point
    split
    case isTrue hnil =>
      rw [hnil, List.nil_append]
      unfold splitFraction
      split
      case h_1 => exact absurd rfl (hstop '.' rfl).2
      case h_2 => rfl
    case isFalse => exact splitDigits_append h.isDigit_fraction fun c hc => (hstop c hc).1
  unfold Decimal.readLiteral?
  simp only [hsign, hwhole, hfraction, readExponent?_power hpower]
  simp [h.whole_ne_nil]

end Literal

/-! ### Layouts -/

section Layouts

variable {layout : Layout} {ds : List Char} {e : ℤ} {x y : Float}

/-- The number with these digits, the first of which stands at the place `e`. -/
def leading (ds : List Char) (e : ℤ) : ℚ :=
  ofDigits ds * 10 ^ (e + 1 - ds.length)

namespace Layout

/-- Digits that all stand behind the point, after some zeros, spell their number.

**Proof sketch.** Zeros in front do not change what digits denote, and the number of the zeros makes
up for the place of the first digit. -/
lemma spelled_fraction (negative : Bool) (hne : ds ≠ []) (hds : ∀ c ∈ ds, c.isDigit = true)
    (he : e < 0) : ∃ l : Literal, l.negative = negative ∧
      l.Spelled ('0' :: '.' :: (List.replicate (-e - 1).toNat '0' ++ ds)) ∧
      l.magnitude.value = leading ds e := by
  refine ⟨⟨negative, ['0'], List.replicate (-e - 1).toNat '0' ++ ds, 0⟩, rfl, ?_, ?_⟩
  · refine ⟨⟨[], ?_, .absent⟩, by simp, by simp, ?_⟩
    · simp [point, hne]
    · intro c hc
      exact (List.mem_append.1 hc).elim isDigit_of_mem_zeros (hds c)
  · have hexponent : 0 - ((List.replicate (-e - 1).toNat '0' ++ ds).length : ℤ) =
        e + 1 - ds.length := by
      rw [List.length_append, List.length_replicate]
      omega
    have hdigits : ofDigits (['0'] ++ (List.replicate (-e - 1).toNat '0' ++ ds)) =
        ofDigits ds := by
      rw [← List.append_assoc, List.singleton_append, ← List.replicate_succ]
      exact ofDigits_zeros_append _ ds
    simp only [Literal.magnitude, value, leading, hexponent, hdigits]

/-- Digits that all stand before the point, with zeros behind them, spell their number.

**Proof sketch.** Each zero behind the digits multiplies them by ten, and a zero behind the point is
one more that the place of the point makes up for. -/
lemma spelled_whole (layout : Layout) (negative : Bool) (hne : ds ≠ [])
    (hds : ∀ c ∈ ds, c.isDigit = true) (he : ¬ e < 0) (hshort : ds.length ≤ (e + 1).toNat) :
    ∃ l : Literal, l.negative = negative ∧
      l.Spelled (ds ++ List.replicate ((e + 1).toNat - ds.length) '0' ++
        (if layout.pointZero then ['.', '0'] else [])) ∧
      l.magnitude.value = leading ds e := by
  refine ⟨⟨negative, ds ++ List.replicate ((e + 1).toNat - ds.length) '0',
    if layout.pointZero then ['0'] else [], 0⟩, rfl, ?_, ?_⟩
  · refine ⟨⟨[], ?_, .absent⟩, by simp [hne], ?_, ?_⟩
    · cases layout.pointZero <;> simp [point]
    · intro c hc
      exact (List.mem_append.1 hc).elim (hds c) isDigit_of_mem_zeros
    · cases layout.pointZero <;> simp
  · have hexponent : e + 1 - ds.length = ((e + 1).toNat - ds.length : ℕ) := by omega
    simp only [Literal.magnitude, value, leading, hexponent, zpow_natCast]
    cases layout.pointZero with
    | false => simp [ofDigits_append_zeros]
    | true =>
      have hmore : ds ++ List.replicate ((e + 1).toNat - ds.length) '0' ++ ['0'] =
          ds ++ List.replicate ((e + 1).toNat - ds.length + 1) '0' := by
        rw [List.append_assoc, List.replicate_succ']
      simp only [if_true, hmore, ofDigits_append_zeros, List.length_singleton, Nat.cast_one,
        zero_sub, zpow_neg_one, pow_succ]
      ring

/-- Digits with the point among them spell their number.

**Proof sketch.** The digits before and behind the point are all digits together, and the number of
those behind it is the place of the point. -/
lemma spelled_split (negative : Bool) (hds : ∀ c ∈ ds, c.isDigit = true) (he : ¬ e < 0)
    (hlong : ¬ ds.length ≤ (e + 1).toNat) : ∃ l : Literal, l.negative = negative ∧
      l.Spelled (ds.take (e + 1).toNat ++ '.' :: ds.drop (e + 1).toNat) ∧
      l.magnitude.value = leading ds e := by
  have htake : (ds.take (e + 1).toNat).length = (e + 1).toNat := by
    rw [List.length_take]
    omega
  have hdrop : (ds.drop (e + 1).toNat).length = ds.length - (e + 1).toNat := List.length_drop
  refine ⟨⟨negative, ds.take (e + 1).toNat, ds.drop (e + 1).toNat, 0⟩, rfl, ?_, ?_⟩
  · refine ⟨⟨[], ?_, .absent⟩, ?_, ?_, ?_⟩
    · have hne : ds.drop (e + 1).toNat ≠ [] := List.ne_nil_of_length_pos (by omega)
      simp [point, hne]
    · have hne : ds.take (e + 1).toNat ≠ [] := List.ne_nil_of_length_pos (by omega)
      exact hne
    · exact fun c hc => hds c (List.mem_of_mem_take hc)
    · exact fun c hc => hds c (List.mem_of_mem_drop hc)
  · have hexponent : 0 - ((ds.drop (e + 1).toNat).length : ℤ) = e + 1 - ds.length := by omega
    simp only [Literal.magnitude, value, leading, hexponent, List.take_append_drop]

/-- Digits with a point among or around them spell their number. -/
lemma spelled_writePositional (layout : Layout) (negative : Bool) (hne : ds ≠ [])
    (hds : ∀ c ∈ ds, c.isDigit = true) (e : ℤ) :
    ∃ l : Literal, l.negative = negative ∧ l.Spelled (layout.writePositional ds e) ∧
      l.magnitude.value = leading ds e := by
  unfold writePositional
  dsimp only
  split
  case isTrue he => exact spelled_fraction negative hne hds he
  case isFalse he =>
    split
    case isTrue hshort => exact layout.spelled_whole negative hne hds he hshort
    case isFalse hlong => exact spelled_split negative hds he hlong

/-- One digit before the point and the others behind it spell their number with its power of
ten. -/
lemma spelled_writeScientific (negative : Bool) (hne : ds ≠ [])
    (hds : ∀ c ∈ ds, c.isDigit = true) (e : ℤ) :
    ∃ l : Literal, l.negative = negative ∧ l.Spelled (writeScientific ds e) ∧
      l.magnitude.value = leading ds e := by
  obtain ⟨d, rest, rfl⟩ := List.exists_cons_of_ne_nil hne
  refine ⟨⟨negative, [d], rest, e⟩, rfl, ?_, ?_⟩
  · refine ⟨⟨_, ?_, .present e⟩, by simp, ?_, ?_⟩
    · cases rest with
      | nil => simp [writeScientific, point]
      | cons c cs => simp [writeScientific, point]
    · simpa using hds d List.mem_cons_self
    · exact fun c hc => hds c (List.mem_cons_of_mem d hc)
  · have hexponent : e - (rest.length : ℤ) = e + 1 - (d :: rest).length := by
      rw [List.length_cons]
      omega
    simp only [Literal.magnitude, value, leading, hexponent, List.singleton_append]

/-- The significant digits of a decimal other than zero are its number.

**Proof sketch.** The digits of the coefficient are the significant ones and zeros behind them, and
each of the zeros counts as a power of ten. If no digit were significant, the coefficient would be
zero. -/
lemma leading_significant {d : Decimal} (hpos : 0 < d.coefficient) :
    significant d ≠ [] ∧ (∀ c ∈ significant d, c.isDigit = true) ∧
      leading (significant d) d.leadingExponent = d.value := by
  obtain ⟨n, hn⟩ : ∃ n, d.digits = significant d ++ List.replicate n '0' := by
    have hzeros : ∀ c ∈ d.digits.reverse.takeWhile (· == '0'), c = '0' := fun c hc => by
      simpa using List.mem_takeWhile_imp hc
    refine ⟨(d.digits.reverse.takeWhile (· == '0')).length, ?_⟩
    rw [significant, ← List.reverse_replicate, ← List.eq_replicate_of_mem hzeros,
      ← List.reverse_append, List.takeWhile_append_dropWhile, List.reverse_reverse]
  have hdigits : ofDigits d.digits = d.coefficient := ofDigits_toDigits d.coefficient
  have hvalue : (d.coefficient : ℚ) = ofDigits (significant d) * 10 ^ n := by
    rw [← hdigits, hn, ofDigits_append_zeros]
  refine ⟨?_, ?_, ?_⟩
  · intro hnil
    rw [hnil] at hvalue
    have hzero : (d.coefficient : ℚ) = 0 := by rw [hvalue]; simp [ofDigits]
    have : d.coefficient = 0 := by exact_mod_cast hzero
    omega
  · intro c hc
    have hmem : c ∈ d.digits := by
      rw [hn]
      exact List.mem_append_left _ hc
    exact Nat.isDigit_of_mem_toDigits (by decide) (by decide) hmem
  · have hlength : d.leadingExponent + 1 - (significant d).length = n + d.exponent := by
      rw [Decimal.leadingExponent, hn, List.length_append, List.length_replicate]
      omega
    rw [leading, hlength, zpow_add₀ (by norm_num), zpow_natCast, ← mul_assoc, ← hvalue]
    rfl

end Layout

/-- The number that is written for a float, its sign aside. -/
def Binary.chosen (b : Binary) (tie : Tie) : ℚ :=
  if b.significand = 0 then 0 else (shortest b tie).value

namespace Layout

/-- What is written for a magnitude spells the number that was chosen for it.

**Proof sketch.** Zero is written as the digit zero. For another number the shortest decimal is
chosen, whose significant digits are laid out with a point or with a power of ten. -/
lemma spelled_writeMagnitude (layout : Layout) {b : Binary} (h : b.IsCanonical) :
    ∃ l : Literal, l.negative = b.negative ∧ l.Spelled (layout.writeMagnitude b) ∧
      l.magnitude.value = b.chosen layout.tie := by
  unfold writeMagnitude Binary.chosen
  split
  case isTrue =>
    obtain ⟨l, hsign, hspelled, hvalue⟩ :=
      layout.spelled_writePositional b.negative (List.cons_ne_nil '0' []) (by simp) 0
    exact ⟨l, hsign, hspelled, hvalue.trans (by simp [leading, ofDigits])⟩
  case isFalse hne =>
    obtain ⟨hpos, -⟩ := holds_shortest h (Nat.pos_of_ne_zero hne) layout.tie
    obtain ⟨hnil, hdigits, hvalue⟩ := leading_significant hpos
    dsimp only
    split
    case isTrue =>
      rw [← hvalue]
      exact layout.spelled_writePositional b.negative hnil hdigits _
    case isFalse =>
      rw [← hvalue]
      exact spelled_writeScientific b.negative hnil hdigits _

/-- The text of a finite float has no word for it. -/
lemma toList_write (hx : x.isFinite = true) : (layout.write x).toList =
    (if (Binary.ofFloat x).negative then ['-'] else []) ++
      layout.writeMagnitude (Binary.ofFloat x) := by
  have hword : wordOf? x = none := by
    rw [wordOf?, isNaN_eq_false hx, if_neg Bool.false_ne_true, if_pos hx]
  simp only [write, hword, String.toList_ofList]

/-- The text of a finite float is read as a literal with the sign of the float and the number that
was chosen for it. -/
theorem readLiteral?_write (layout : Layout) (hx : x.isFinite = true) :
    ∃ l, readLiteral? (layout.write x).toList = some l ∧
      l.negative = (Binary.ofFloat x).negative ∧
      l.magnitude.value = (Binary.ofFloat x).chosen layout.tie := by
  obtain ⟨l, hsign, hspelled, hvalue⟩ :=
    layout.spelled_writeMagnitude (Binary.isCanonical_ofFloat x)
  refine ⟨l, ?_, hsign, hvalue⟩
  rw [toList_write hx, ← hsign]
  exact hspelled.readLiteral?

end Layout

/-- A magnitude is identified by the number that is chosen for it.

**Proof sketch.** A number other than zero is written as one of its interval, and intervals of
different magnitudes do not meet (`Interval.eq_of_holds`). Zero is not written as any other
number. -/
lemma Binary.eq_of_chosen_eq {b b' : Binary} {tie : Tie} (h : b.IsCanonical)
    (h' : b'.IsCanonical) (hchosen : b.chosen tie = b'.chosen tie) :
    b.significand = b'.significand ∧ b.exponent = b'.exponent := by
  have hpositive : ∀ {c : Binary}, c.IsCanonical → 0 < c.significand →
      0 < (shortest c tie).value := by
    intro c hc hpos
    have hcoefficient : (0 : ℚ) < (shortest c tie).coefficient := by
      exact_mod_cast (holds_shortest hc hpos tie).1
    unfold Decimal.value
    positivity
  have hleast : ∀ {c : Binary}, c.IsCanonical → c.significand = 0 → c.exponent = -1074 := by
    intro c hc hzero
    have := hc.normal
    omega
  unfold chosen at hchosen
  by_cases hzero : b.significand = 0 <;> by_cases hzero' : b'.significand = 0
  · exact ⟨hzero.trans hzero'.symm, (hleast h hzero).trans (hleast h' hzero').symm⟩
  · rw [if_pos hzero, if_neg hzero'] at hchosen
    exact absurd hchosen (hpositive h' (Nat.pos_of_ne_zero hzero')).ne
  · rw [if_neg hzero, if_pos hzero'] at hchosen
    exact absurd hchosen (hpositive h (Nat.pos_of_ne_zero hzero)).ne'
  · rw [if_neg hzero, if_neg hzero'] at hchosen
    have hholds := (holds_shortest h (Nat.pos_of_ne_zero hzero) tie).2
    have hholds' := (holds_shortest h' (Nat.pos_of_ne_zero hzero') tie).2
    rw [← hchosen] at hholds'
    exact Interval.eq_of_holds h h' hholds hholds'

namespace Layout

/-- A finite float is identified by its text.

**Proof sketch.** The texts are read as literals with the signs of the floats and with numbers that
round to them. -/
theorem write_inj (layout : Layout) (hx : x.isFinite = true) (hy : y.isFinite = true) :
    layout.write x = layout.write y ↔ x = y := by
  constructor
  · intro h
    obtain ⟨l, hread, hsign, hvalue⟩ := layout.readLiteral?_write hx
    obtain ⟨l', hread', hsign', hvalue'⟩ := layout.readLiteral?_write hy
    rw [h, hread'] at hread
    obtain rfl := Option.some.inj hread
    obtain ⟨hsignificand, hexponent⟩ := Binary.eq_of_chosen_eq (Binary.isCanonical_ofFloat x)
      (Binary.isCanonical_ofFloat y) (hvalue.symm.trans hvalue')
    have hnegative := hsign.symm.trans hsign'
    apply Binary.ofFloat_inj.1
    generalize Binary.ofFloat x = b at *
    generalize Binary.ofFloat y = b' at *
    cases b
    cases b'
    cases hsignificand
    cases hexponent
    cases hnegative
    rfl
  · exact congrArg layout.write

/-- The text of a finite float consists of characters of numbers. -/
lemma isNumeral_of_mem_write (layout : Layout) (hx : x.isFinite = true) :
    ∀ c ∈ (layout.write x).toList, Literal.IsNumeral c := by
  obtain ⟨l, -, hspelled, -⟩ := layout.spelled_writeMagnitude (Binary.isCanonical_ofFloat x)
  rw [toList_write hx]
  intro c hc
  rcases List.mem_append.1 hc with hc | hc
  · split at hc
    case isTrue =>
      obtain rfl := List.mem_singleton.1 hc
      exact .inr (by decide)
    case isFalse => cases hc
  · exact hspelled.isNumeral c hc

/-- The text of a finite float is not empty. -/
lemma toList_write_ne_nil (layout : Layout) (hx : x.isFinite = true) :
    (layout.write x).toList ≠ [] := by
  obtain ⟨l, -, hspelled, -⟩ := layout.spelled_writeMagnitude (Binary.isCanonical_ofFloat x)
  obtain ⟨power, htext, -⟩ := hspelled.parts
  rw [toList_write hx, htext]
  simp [hspelled.whole_ne_nil]

/-- In a layout that tells floats from whole numbers, the text of a finite float has a point or a
power of ten.

**Proof sketch.** Each way to lay out digits is gone through: all of them have a point but the one
with a power of ten, which has its letter. -/
lemma exists_mark_write (hlayout : layout.pointZero = true) (hx : x.isFinite = true) :
    ∃ c ∈ (layout.write x).toList, c = '.' ∨ c = 'e' := by
  have hpositional : ∀ ds e, '.' ∈ layout.writePositional ds e := by
    intro ds e
    unfold writePositional
    dsimp only
    split
    case isTrue => simp
    case isFalse =>
      split
      case isTrue => simp
      case isFalse => simp
  have hscientific : ∀ ds e, 'e' ∈ writeScientific ds e := by
    intro ds e
    simp [writeScientific]
  have hmark : '.' ∈ layout.writeMagnitude (Binary.ofFloat x) ∨
      'e' ∈ layout.writeMagnitude (Binary.ofFloat x) := by
    unfold writeMagnitude
    split
    case isTrue => exact .inl (hpositional _ _)
    case isFalse =>
      dsimp only
      split
      case isTrue => exact .inl (hpositional _ _)
      case isFalse => exact .inr (hscientific _ _)
  rw [toList_write hx]
  rcases hmark with h | h
  · exact ⟨'.', List.mem_append_right _ h, .inl rfl⟩
  · exact ⟨'e', List.mem_append_right _ h, .inr rfl⟩

end Layout

end Layouts

end Cohort.Decimal
