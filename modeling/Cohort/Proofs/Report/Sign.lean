import Cohort.Proofs.Json.Number
import Cohort.Proofs.Report.Duration
import Cohort.Proofs.Report.Grouping
set_option relaxedAutoImplicit false
set_option autoImplicit false

/-!
# Signs of formatted numbers

A number is shown with so few places that little is left of a small one. If nothing is left, a minus
sign in front of zeros says nothing. Numbers and lengths of time are shown without it then. Amounts
of money keep it, so less than half a cent is shown as a negative zero; and so does a share that is
too large for a float in percent, of which no digit is shown at all. This file says which values are
shown so.

## Main definitions

* `Cohort.Report.NoNegativeZero` — a text with a minus sign shows a digit other than zero.

## Main results

* `Cohort.Report.trimmedPlaces_eq_zero_iff` — when a number is shown as zero.
* `Cohort.Report.noNegativeZero_writeNumber_iff`, `Cohort.Report.noNegativeZero_writeCurrency_iff`,
  `Cohort.Report.noNegativeZero_writeDuration` — the sign in each of the formats.
* `Cohort.Report.noNegativeZero_render_iff` — which values are shown as a negative zero.
-/

namespace Cohort.Report

open Decimal

/-- A text with a minus sign shows a digit other than zero. -/
def NoNegativeZero (cs : List Char) : Prop :=
  '-' ∈ cs → ∃ d ∈ cs, d.isDigit = true ∧ d ≠ '0'

variable {cs suffix : List Char} {c unwanted : Char} {n : ℕ} {x : Float}

/-! ### Digits -/

/-- A number other than zero has a digit other than zero. -/
lemma exists_mem_toDigits (h : n ≠ 0) : ∃ d ∈ Nat.toDigits 10 n, d.isDigit = true ∧ d ≠ '0' := by
  by_contra hzeros
  have hall : ∀ d ∈ Nat.toDigits 10 n, d = '0' := by
    intro d hd
    by_contra hne
    exact hzeros ⟨d, hd, isDigit_of_mem_toDigits hd, hne⟩
  apply h
  rw [← ofDigits_toDigits n, List.eq_replicate_of_mem hall, ofDigits_zeros]

/-- Digits with a point in them. -/
lemma mem_placePoint {places : ℕ} (h : c ∈ placePoint n places) : c.isDigit = true ∨ c = '.' := by
  obtain ⟨m, -, -, htext⟩ := exists_figure_placePoint n places
  rw [← htext] at h
  exact m.mem_text h

/-- If not all of them are zero, one of them is not, before the point or behind it.

**Proof sketch.** The number is the part before the point and the part behind it, so one of them is
not zero, and its digits are not all zeros. -/
lemma exists_mem_placePoint (places : ℕ) (h : n ≠ 0) :
    ∃ d ∈ placePoint n places, d.isDigit = true ∧ d ≠ '0' := by
  have hsplit := Nat.div_add_mod n (Nat.pow 10 places)
  by_cases hwhole : n / Nat.pow 10 places = 0
  · have hfraction : n % Nat.pow 10 places ≠ 0 := by
      intro hfraction
      rw [hwhole, hfraction, Nat.mul_zero] at hsplit
      exact h hsplit.symm
    obtain ⟨d, hd, hcount⟩ := exists_mem_toDigits hfraction
    refine ⟨d, ?_, hcount⟩
    unfold placePoint
    dsimp only
    split
    case isTrue hplaces =>
      subst hplaces
      exact absurd (Nat.mod_one n) hfraction
    case isFalse =>
      exact List.mem_append_right _ (List.mem_cons_of_mem _ (List.mem_append_right _ hd))
  · obtain ⟨d, hd, hcount⟩ := exists_mem_toDigits hwhole
    refine ⟨d, ?_, hcount⟩
    unfold placePoint
    dsimp only
    split
    · exact hd
    · exact List.mem_append_left _ hd

/-! ### Groups and trimmed places -/

/-- Grouping a figure inserts no minus sign. -/
lemma minus_notMem_groupThousands (h : '-' ∉ cs) : '-' ∉ groupThousands cs :=
  mt (mem_groupThousands_iff (by decide)).1 h

/-- Other characters than the unwanted ones stay. -/
lemma mem_dropAtEnd_iff (hne : c ≠ unwanted) : c ∈ dropAtEnd unwanted cs ↔ c ∈ cs := by
  refine ⟨mem_of_mem_dropAtEnd, fun h => ?_⟩
  rw [← List.mem_reverse, ← List.takeWhile_append_dropWhile (p := (· == unwanted))
    (l := cs.reverse), List.mem_append] at h
  rcases h with h | h
  · exact absurd (by simpa using List.mem_takeWhile_imp h) hne
  · exact List.mem_reverse.2 h

/-! ### The formats -/

/-- A minus sign in front of a text without one. -/
lemma noNegativeZero_minusIf {needed : Bool} (h : '-' ∉ cs) :
    NoNegativeZero (minusIf needed ++ cs) ↔
      (needed = true → ∃ d ∈ cs, d.isDigit = true ∧ d ≠ '0') := by
  unfold NoNegativeZero minusIf
  cases needed with
  | false => simp [h]
  | true => simp [h]

/-- The places of a finite number, as they are shown. -/
lemma mem_trimmedPlaces (hx : x.isFinite = true) (h : c ∈ trimmedPlaces x) :
    c.isDigit = true ∨ c = '.' := by
  obtain ⟨n, -, htext⟩ := exists_figure_trimmedPlaces hx
  rw [← htext] at h
  exact n.mem_text h

/-- What is not finite is shown by a word. -/
lemma trimmedPlaces_of_not_isFinite (hx : ¬ x.isFinite = true) :
    '-' ∉ trimmedPlaces x ∧ (∀ d ∈ trimmedPlaces x, d.isDigit = false) ∧
      trimmedPlaces x ≠ ['0'] := by
  unfold trimmedPlaces fixed
  rw [if_neg hx]
  split <;> simp [dropAtEnd]

/-- No sign is part of the places. -/
lemma minus_notMem_trimmedPlaces (x : Float) : '-' ∉ trimmedPlaces x := by
  by_cases hx : x.isFinite = true
  · intro hmem
    rcases mem_trimmedPlaces hx hmem with hmem | hmem <;> cases hmem
  · exact (trimmedPlaces_of_not_isFinite hx).1

/-- If not all of them are zero, one is shown that is not. -/
lemma exists_mem_trimmedPlaces (hx : x.isFinite = true)
    (h : (Binary.ofFloat x).roundedMagnitude 2 .toEven ≠ 0) :
    ∃ d ∈ trimmedPlaces x, d.isDigit = true ∧ d ≠ '0' := by
  obtain ⟨d, hd, hdigit, hzero⟩ := exists_mem_placePoint 2 h
  have hpoint : d ≠ '.' := ne_of_isDigit hdigit (by decide)
  refine ⟨d, ?_, hdigit, hzero⟩
  unfold trimmedPlaces fixed
  rw [if_pos hx, mem_dropAtEnd_iff hpoint, mem_dropAtEnd_iff hzero]
  exact hd

/-- A finite number is shown as zero if that is what it is rounded to. -/
lemma trimmedPlaces_eq_zero_iff (hx : x.isFinite = true) :
    trimmedPlaces x = ['0'] ↔ (Binary.ofFloat x).roundedMagnitude 2 .toEven = 0 := by
  constructor
  · intro h
    by_contra hne
    obtain ⟨d, hd, -, hzero⟩ := exists_mem_trimmedPlaces hx hne
    rw [h, List.mem_singleton] at hd
    exact hzero hd
  · intro h
    unfold trimmedPlaces fixed
    rw [if_pos hx, h]
    decide +kernel

/-- A number that is finite is shown with a sign only if a digit other than zero is. One that is not
has no digits.

**Proof sketch.** The digits of a finite number are cut to places, and a sign is written unless they
are a zero alone; so one of them counts. The words for infinity and for no number have no digit at
all, and a sign there stands before nothing that counts. -/
lemma noNegativeZero_writeNumber_iff (hminus : '-' ∉ suffix)
    (hdigit : ∀ d ∈ suffix, d.isDigit = false) :
    NoNegativeZero (writeNumber x ++ suffix) ↔ x.isFinite = true ∨ isNegative x = false := by
  have hfree : '-' ∉ groupThousands (trimmedPlaces x) ++ suffix := by
    rw [List.mem_append, not_or]
    exact ⟨minus_notMem_groupThousands (minus_notMem_trimmedPlaces x), hminus⟩
  rw [writeNumber, List.append_assoc, noNegativeZero_minusIf hfree]
  by_cases hx : x.isFinite = true
  · refine iff_of_true (fun hneeded => ?_) (.inl hx)
    have hne : trimmedPlaces x ≠ ['0'] := by
      simpa using (Bool.and_eq_true_iff.1 hneeded).2
    obtain ⟨d, hd, hcount⟩ :=
      exists_mem_trimmedPlaces hx fun h => hne ((trimmedPlaces_eq_zero_iff hx).2 h)
    have hcomma : d ≠ ',' := ne_of_isDigit hcount.1 (by decide)
    exact ⟨d, List.mem_append_left _ ((mem_groupThousands_iff hcomma).2 hd), hcount⟩
  · obtain ⟨-, hword, hne⟩ := trimmedPlaces_of_not_isFinite hx
    have hnone : ∀ d ∈ groupThousands (trimmedPlaces x) ++ suffix, d.isDigit = false := by
      intro d hd
      rcases List.mem_append.1 hd with hd | hd
      · by_cases hcomma : d = ','
        · rw [hcomma]
          rfl
        · exact hword d ((mem_groupThousands_iff hcomma).1 hd)
      · exact hdigit d hd
    rw [or_iff_right hx, bne_iff_ne.2 hne, Bool.and_true, ← Bool.not_eq_true]
    refine ⟨fun h hnegative => ?_, fun h hnegative => absurd hnegative h⟩
    obtain ⟨d, hd, hcount, -⟩ := h hnegative
    rw [hnone d hd] at hcount
    cases hcount

/-- An amount is shown with a sign whenever it is negative.

**Proof sketch.** The sign is written whenever the number is negative, so it stands before nothing
that counts if and only if no cents are left. The text of no cents is computed. -/
lemma noNegativeZero_writeCurrency_iff (hx : x.isFinite = true) :
    NoNegativeZero (writeCurrency x) ↔
      ¬ (isNegative x = true ∧ (Binary.ofFloat x).roundedMagnitude 2 .toEven = 0) := by
  have hfixed : fixed x 2 = placePoint ((Binary.ofFloat x).roundedMagnitude 2 .toEven) 2 := by
    rw [fixed, if_pos hx]
  rw [writeCurrency, hfixed]
  generalize (Binary.ofFloat x).roundedMagnitude 2 .toEven = cents
  have hplaces : '-' ∉ placePoint cents 2 := by
    intro hmem
    rcases mem_placePoint hmem with hmem | hmem <;> cases hmem
  have hfree : '-' ∉ '$' :: groupThousands (placePoint cents 2) :=
    List.not_mem_cons_of_ne_of_not_mem (by decide) (minus_notMem_groupThousands hplaces)
  rw [noNegativeZero_minusIf hfree, not_and]
  refine forall_congr' fun _ => ⟨?_, fun hcents => ?_⟩
  · rintro ⟨d, hd, hcount⟩ rfl
    have hzeros : groupThousands (placePoint 0 2) = ['0', '.', '0', '0'] := by
      decide +kernel
    rw [hzeros] at hd
    simp only [List.mem_cons, List.not_mem_nil, or_false] at hd
    rcases hd with rfl | rfl | rfl | rfl | rfl <;> simp at hcount
  · obtain ⟨d, hd, hcount⟩ := exists_mem_placePoint 2 hcents
    have hcomma : d ≠ ',' := ne_of_isDigit hcount.1 (by decide)
    exact ⟨d, List.mem_cons_of_mem _ ((mem_groupThousands_iff hcomma).2 hd), hcount⟩

/-- A length of time is shown with a sign only if it has parts, of which none is zero.

**Proof sketch.** A sign is written if some seconds are shown, so there is a part. It is not zero,
and one of its digits is not either. -/
lemma noNegativeZero_writeDuration (x : Float) : NoNegativeZero (writeDuration x) := by
  have hletters : ∀ part ∈ partsOf (wholeSeconds x), part.2 ∈ ['d', 'h', 'm', 's'] :=
    fun part hpart => (isReduced_partsOf _).letters.subset (List.mem_map_of_mem hpart)
  rw [writeDuration_eq, noNegativeZero_minusIf (minus_notMem_writeParts hletters)]
  intro hneeded
  have hseconds : (wholeSeconds x : ℤ) ≠ 0 := by
    simpa using (Bool.and_eq_true_iff.1 hneeded).2
  obtain ⟨part, hpart⟩ := List.exists_mem_of_ne_nil _ (partsOf_ne_nil (wholeSeconds x))
  obtain ⟨d, hd, hcount⟩ :=
    exists_mem_toDigits ((isReduced_partsOf _).ne_zero hseconds part hpart)
  exact ⟨d, mem_writeParts_of_mem (List.mem_append_left _ hd) hpart, hcount⟩

/-! ### Values -/

/-- A value is shown as a negative zero if it is an amount of less than nothing, but of no more than
half a cent, or a share below zero that is too large in percent.

**Proof sketch.** By the format. A figure has its sign only in front of digits that count. Of an
amount no cents are left if it is half a cent or less, where the tie goes to the even number of
cents, which is zero. A share is shown as a figure, after it was multiplied. -/
theorem noNegativeZero_render_iff {v : Json} {f : Format} (hv : v.toNumber? = some x)
    (hf : f ≠ .text) :
    NoNegativeZero (f.render v).toList ↔
      ¬ (f = .currency ∧ -1 / 200 ≤ (Binary.ofFloat x).value ∧ (Binary.ofFloat x).value < 0) ∧
        ¬ (f = .percentage ∧ isNegative (x * 100.0) = true ∧ (x * 100.0).isFinite = false) := by
  have hx := Json.isFinite_of_toNumber? hv
  have hrender : ∀ cs, f.writeNumber? x = some cs → (f.render v).toList = cs := by
    intro cs hcs
    rw [Format.render, hv, Option.bind_some, hcs]
    exact String.toList_ofList
  cases f with
  | number =>
    have hshown : NoNegativeZero (writeNumber x ++ []) :=
      (noNegativeZero_writeNumber_iff (by simp) (by simp)).2 (.inl hx)
    rw [List.append_nil] at hshown
    rw [hrender _ rfl]
    exact iff_of_true hshown ⟨fun h => (nomatch h.1), fun h => (nomatch h.1)⟩
  | currency =>
    -- half a cent is rounded to none, since none is even
    have hcents : (Binary.ofFloat x).roundedMagnitude 2 .toEven = 0 ↔
        |(Binary.ofFloat x).value| ≤ 1 / 200 := by
      rw [Binary.roundedMagnitude_toEven_eq_zero_iff, Binary.abs_value]
      constructor <;> intro h <;> linarith
    rw [hrender _ rfl, noNegativeZero_writeCurrency_iff hx, isNegative_iff hx, hcents, abs_le]
    constructor
    · intro h
      refine ⟨fun ⟨_, hlow, hneg⟩ => h ⟨hneg, by linarith, by linarith⟩, fun h => (nomatch h.1)⟩
    · rintro ⟨h, -⟩ ⟨hneg, hlow, -⟩
      exact h ⟨rfl, by linarith, hneg⟩
  | percentage =>
    rw [hrender _ rfl]
    refine (noNegativeZero_writeNumber_iff (by simp) (by simp)).trans ?_
    have hother : ¬ Format.percentage = .currency := nofun
    cases (x * 100.0).isFinite <;> cases isNegative (x * 100.0) <;> simp [hother]
  | duration =>
    rw [hrender _ rfl]
    exact iff_of_true (noNegativeZero_writeDuration x)
      ⟨fun h => (nomatch h.1), fun h => (nomatch h.1)⟩
  | text => exact absurd rfl hf

/-- A refund of a quarter is shown with its sign. -/
theorem refund_shown :
    (Json.number (.float (-0.25) (by decide +kernel))).toNumber? = some (-0.25) ∧
      Format.currency ≠ .text ∧
      Format.currency.render (.number (.float (-0.25) (by decide +kernel))) = "-$0.25" ∧
      NoNegativeZero
        (Format.currency.render (.number (.float (-0.25) (by decide +kernel)))).toList := by
  have hvalue : Binary.ofFloat (-0.25) = ⟨true, 4503599627370496, -54⟩ := by decide +kernel
  have hnumber : (Binary.ofFloat (-0.25)).value = -1 / 4 := by
    rw [hvalue, Binary.value, Binary.magnitude]
    norm_num
  refine ⟨rfl, by decide, by decide +kernel,
    (noNegativeZero_render_iff (x := -0.25) rfl (by decide)).2 ⟨?_, ?_⟩⟩
  · intro h
    have hlow := h.2.1
    rw [hnumber] at hlow
    norm_num at hlow
  · intro h
    cases h.1

/-- A refund of a tenth of a cent is shown as a negative zero. -/
theorem tenthOfCent_misshown :
    (Json.number (.float (-0.001) (by decide +kernel))).toNumber? = some (-0.001) ∧
      Format.currency.render (.number (.float (-0.001) (by decide +kernel))) = "-$0.00" ∧
      ¬ NoNegativeZero
        (Format.currency.render (.number (.float (-0.001) (by decide +kernel)))).toList := by
  have hshown :
      Format.currency.render (.number (.float (-0.001) (by decide +kernel))) = "-$0.00" := by
    decide +kernel
  refine ⟨rfl, hshown, fun h => ?_⟩
  rw [hshown] at h
  obtain ⟨d, hd, hdigit, hzero⟩ := h (by decide)
  have hall : ∀ d ∈ "-$0.00".toList, d.isDigit = true → d = '0' := by simp
  exact hzero (hall d hd hdigit)

end Cohort.Report
