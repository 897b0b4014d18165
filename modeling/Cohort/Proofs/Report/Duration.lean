import Mathlib.Algebra.BigOperators.Group.List.Basic
import Cohort.Proofs.Decimal.Rounding
import Cohort.Proofs.Decimal.Text
import Cohort.Report.Format
set_option relaxedAutoImplicit false
set_option autoImplicit false

/-!
# Lengths of time as texts

A number of seconds is rounded and then written by units, from the longest. Only the units that are
needed are written, so most texts have fewer than four parts. Such a text is read back by adding up
its parts, and this gives the rounded number. No part says as much as the unit before it, so each
unit is used as often as it can be.

## Main definitions

* `Cohort.Report.readDuration?` — the number of seconds that a text says.
* `Cohort.Report.IsReduced` — parts of which each is as great as it can be.

## Main results

* `Cohort.Report.total_durationParts` — the parts add up.
* `Cohort.Report.count_mul_lt` — a part says less than the unit before it.
* `Cohort.Report.readDuration?_write` — parts are read as their sum.
* `Cohort.Report.writeDuration_denotes` — a length of time is read back as the rounded one.
-/

namespace Cohort.Report

open Decimal

/-! ### Reading -/

/-- The seconds of a unit, by its letter. -/
def secondsOf? : Char → Option ℕ
  | 'd' => some (24 * 60 * 60)
  | 'h' => some (60 * 60)
  | 'm' => some 60
  | 's' => some 1
  | _ => none

/-- The number of seconds that a part of a text says: digits in front of the letter of a unit. -/
def readPart? (part : List Char) : Option ℕ :=
  match splitDigits part with
  | (d :: ds, [letter]) => (secondsOf? letter).map (ofDigits (d :: ds) * ·)
  | _ => none

/-- The number of seconds that the parts between blanks say. -/
def readParts? (text : List Char) : Option ℕ :=
  ((text.splitOn ' ').mapM readPart?).map List.sum

/-- The number of seconds that a text says: the sum of its parts, behind a sign if there is one. -/
def readDuration? : List Char → Option ℤ
  | '-' :: text => (readParts? text).map fun n => -n
  | text => (readParts? text).map fun n => n

/-- The seconds of a unit that there is. -/
def secondsOf (letter : Char) : ℕ :=
  (secondsOf? letter).getD 0

/-- The number of seconds that parts say together. -/
def total (parts : List (ℕ × Char)) : ℕ :=
  (parts.map fun part => part.1 * secondsOf part.2).sum

/-- A part as it is written. -/
def writePart (part : ℕ × Char) : List Char :=
  Nat.toDigits 10 part.1 ++ [part.2]

/-- Parts as they are written. -/
def writeParts (parts : List (ℕ × Char)) : List Char :=
  [' '].intercalate (parts.map writePart)

/-! ### Parts -/

section Parts

variable {units : List (Char × ℕ)} {seconds : ℕ}

/-- The first unit gives a part unless it fits in no time at all, and the others share what is
left.

**Proof sketch.** If the quotient is zero, all seconds are left. -/
lemma durationParts_cons (letter : Char) (size : ℕ) (units : List (Char × ℕ)) (seconds : ℕ) :
    durationParts ((letter, size) :: units) seconds =
      (if seconds / size = 0 then [] else [(seconds / size, letter)]) ++
        durationParts units (seconds % size) := by
  rw [durationParts]
  split
  case isTrue h =>
    have hmod : seconds % size = seconds := by
      have hsplit := Nat.div_add_mod seconds size
      rwa [h, Nat.mul_zero, Nat.zero_add] at hsplit
    rw [hmod, List.nil_append]
  case isFalse h => rfl

/-- No part is zero.

**Proof sketch.** Induction on the units. -/
lemma count_ne_zero {part : ℕ × Char} (h : part ∈ durationParts units seconds) : part.1 ≠ 0 := by
  induction units generalizing seconds with
  | nil => cases h
  | cons unit units ih =>
    rw [durationParts_cons, List.mem_append] at h
    rcases h with h | h
    · split at h
      case isTrue => cases h
      case isFalse hne =>
        rw [List.mem_singleton.1 h]
        exact hne
    · exact ih h

/-- Each unit is used once at most, in the order of the units.

**Proof sketch.** Induction on the units, each of which gives a part or none. -/
lemma letters_sublist (units : List (Char × ℕ)) (seconds : ℕ) :
    ((durationParts units seconds).map Prod.snd).Sublist (units.map Prod.fst) := by
  induction units generalizing seconds with
  | nil => exact .slnil
  | cons unit units ih =>
    rw [durationParts_cons, List.map_append, List.map_cons,
      ← List.singleton_append (l := units.map _)]
    refine List.Sublist.append ?_ (ih _)
    split
    · exact List.nil_sublist _
    · exact List.Sublist.refl _

/-- Parts in a row say together what they say apart. -/
lemma total_append (parts parts' : List (ℕ × Char)) :
    total (parts ++ parts') = total parts + total parts' := by
  rw [total, List.map_append, List.sum_append]
  rfl

/-- The parts, with what is left by the last unit, add up to the number of seconds.

**Proof sketch.** Induction on the units. The first unit takes as much as fits, which is its
quotient times the unit, and the others share the remainder. -/
lemma total_durationParts (hunits : ∀ unit ∈ units, secondsOf unit.1 = unit.2) (seconds : ℕ) :
    total (durationParts units seconds) +
      units.foldl (fun left unit => left % unit.2) seconds = seconds := by
  induction units generalizing seconds with
  | nil => exact Nat.zero_add _
  | cons unit units ih =>
    have hrest := ih (fun u hu => hunits u (List.mem_cons_of_mem _ hu)) (seconds % unit.2)
    have hhead : total (if seconds / unit.2 = 0 then [] else [(seconds / unit.2, unit.1)]) =
        seconds / unit.2 * unit.2 := by
      split
      case isTrue h =>
        rw [h, Nat.zero_mul]
        rfl
      case isFalse =>
        rw [total, List.map_singleton, List.sum_singleton, hunits unit List.mem_cons_self]
    calc _ = seconds / unit.2 * unit.2 + (total (durationParts units (seconds % unit.2)) +
          units.foldl (fun left unit => left % unit.2) (seconds % unit.2)) := by
            rw [durationParts_cons, total_append, hhead, Nat.add_assoc]
            rfl
      _ = seconds := by rw [hrest, Nat.div_add_mod']

/-- What a part stands for is less than the unit before it.

**Proof sketch.** Induction on the units. The part of the first unit is no more than all seconds,
and the others share the remainder, which is less than the unit. -/
lemma count_mul_lt {limit : ℕ} (hunits : ∀ unit ∈ units, 0 < unit.2) (h : seconds < limit)
    {part : ℕ × Char} (hpart : part ∈ durationParts units seconds) :
    ∃ bound size, (bound, part.2, size) ∈ (limit :: units.map Prod.snd).zip units ∧
      part.1 * size < bound := by
  induction units generalizing seconds limit with
  | nil => cases hpart
  | cons unit units ih =>
    rw [durationParts_cons, List.mem_append] at hpart
    rcases hpart with hpart | hpart
    · split at hpart
      case isTrue => cases hpart
      case isFalse =>
        rw [List.mem_singleton.1 hpart]
        exact ⟨limit, unit.2, List.mem_cons_self, Nat.lt_of_le_of_lt (Nat.div_mul_le_self _ _) h⟩
    · have hless := Nat.mod_lt seconds (hunits unit List.mem_cons_self)
      obtain ⟨bound, size, hmem, hlt⟩ :=
        ih (fun u hu => hunits u (List.mem_cons_of_mem _ hu)) hless hpart
      exact ⟨bound, size, List.mem_cons_of_mem _ hmem, hlt⟩

end Parts

/-! ### Texts -/

variable {parts : List (ℕ × Char)}

/-- A part is read as its count of its unit.

**Proof sketch.** The digits are split off at the letter, and the letter names its unit. -/
lemma readPart?_writePart {part : ℕ × Char} (h : part.2 ∈ ['d', 'h', 'm', 's']) :
    readPart? (writePart part) = some (part.1 * secondsOf part.2) := by
  have hletter : ∀ letter ∈ ['d', 'h', 'm', 's'],
      letter.isDigit = false ∧ secondsOf? letter = some (secondsOf letter) := by
    simp [secondsOf, secondsOf?]
  obtain ⟨hdigit, hseconds⟩ := hletter _ h
  have hsplit : splitDigits (writePart part) = (Nat.toDigits 10 part.1, [part.2]) := by
    refine splitDigits_append (fun c => isDigit_of_mem_toDigits) ?_
    rintro c ⟨⟩
    exact hdigit
  rw [readPart?, hsplit]
  cases hdigits : Nat.toDigits 10 part.1 with
  | nil => exact absurd hdigits Nat.toDigits_ne_nil
  | cons d ds =>
    dsimp only
    rw [hseconds, ← hdigits, ofDigits_toDigits]
    rfl

/-- A part holds digits and the letter of a unit, and nothing else. -/
lemma notMem_writePart {c : Char} {part : ℕ × Char} (hdigit : c.isDigit = false)
    (hletter : c ∉ ['d', 'h', 'm', 's']) (h : part.2 ∈ ['d', 'h', 'm', 's']) :
    c ∉ writePart part := by
  intro hmem
  rcases List.mem_append.1 hmem with hmem | hmem
  · rw [isDigit_of_mem_toDigits hmem] at hdigit
    cases hdigit
  · rw [List.mem_singleton.1 hmem] at hletter
    exact hletter h

/-- Parts are read as their counts of their units. -/
lemma mapM_readPart? (h : ∀ part ∈ parts, part.2 ∈ ['d', 'h', 'm', 's']) :
    (parts.map writePart).mapM readPart? =
      some (parts.map fun part => part.1 * secondsOf part.2) := by
  induction parts with
  | nil => rfl
  | cons part parts ih =>
    rw [List.map_cons, List.map_cons, List.mapM_cons,
      readPart?_writePart (h part List.mem_cons_self),
      ih fun p hp => h p (List.mem_cons_of_mem _ hp)]
    rfl

/-- Parts with blanks between them are read as their sum. -/
lemma readParts?_writeParts (hne : parts ≠ [])
    (h : ∀ part ∈ parts, part.2 ∈ ['d', 'h', 'm', 's']) :
    readParts? (writeParts parts) = some (total parts) := by
  have hblank : ∀ text ∈ parts.map writePart, ' ' ∉ text := by
    intro text htext
    obtain ⟨part, hpart, rfl⟩ := List.mem_map.1 htext
    exact notMem_writePart rfl (by simp) (h part hpart)
  have htexts : parts.map writePart ≠ [] := by simpa using hne
  rw [readParts?, writeParts, List.splitOn_intercalate ' ' hblank htexts, mapM_readPart? h]
  rfl

/-- A single part is written alone. -/
lemma writeParts_singleton (part : ℕ × Char) : writeParts [part] = writePart part :=
  List.intercalate_singleton

/-- Parts are written with a blank between them. -/
lemma writeParts_cons_cons (part next : ℕ × Char) (parts : List (ℕ × Char)) :
    writeParts (part :: next :: parts) = writePart part ++ ' ' :: writeParts (next :: parts) := by
  rw [writeParts, List.map_cons, List.map_cons, List.intercalate_cons_cons, List.append_assoc]
  rfl

/-- Between the parts there are blanks only. -/
lemma mem_writeParts {c : Char} : ∀ {parts : List (ℕ × Char)}, c ∈ writeParts parts →
    c = ' ' ∨ ∃ part ∈ parts, c ∈ writePart part
  | [], h => nomatch h
  | [part], h => .inr ⟨part, List.mem_singleton_self part, writeParts_singleton part ▸ h⟩
  | part :: next :: parts, h => by
    rw [writeParts_cons_cons, List.mem_append, List.mem_cons] at h
    rcases h with h | h | h
    · exact .inr ⟨part, List.mem_cons_self, h⟩
    · exact .inl h
    · refine (mem_writeParts h).imp_right ?_
      rintro ⟨p, hp, hc⟩
      exact ⟨p, List.mem_cons_of_mem _ hp, hc⟩

/-- Every part is written. -/
lemma mem_writeParts_of_mem {c : Char} {p : ℕ × Char} (hc : c ∈ writePart p) :
    ∀ {parts : List (ℕ × Char)}, p ∈ parts → c ∈ writeParts parts
  | [], h => nomatch h
  | [part], h => by
    rwa [writeParts_singleton, ← List.mem_singleton.1 h]
  | part :: next :: parts, h => by
    rw [writeParts_cons_cons, List.mem_append, List.mem_cons]
    rcases List.mem_cons.1 h with rfl | h
    · exact .inl hc
    · exact .inr (.inr (mem_writeParts_of_mem hc h))

/-- No part has a sign of its own. -/
lemma minus_notMem_writeParts (h : ∀ part ∈ parts, part.2 ∈ ['d', 'h', 'm', 's']) :
    '-' ∉ writeParts parts := by
  intro hmem
  rcases mem_writeParts hmem with hmem | ⟨part, hpart, hmem⟩
  · cases hmem
  · exact notMem_writePart rfl (by simp) (h part hpart) hmem

/-- A text with a sign is read as the sum of its parts under this sign.

**Proof sketch.** A text without a sign starts with a digit, so the sign is read only where it was
written. -/
theorem readDuration?_write (needed : Bool) (hne : parts ≠ [])
    (h : ∀ part ∈ parts, part.2 ∈ ['d', 'h', 'm', 's']) :
    readDuration? (minusIf needed ++ writeParts parts) =
      some (if needed then -(total parts : ℤ) else total parts) := by
  cases needed with
  | true =>
    change (readParts? (writeParts parts)).map (fun n => -(n : ℤ)) = _
    rw [readParts?_writeParts hne h]
    rfl
  | false =>
    change readDuration? (writeParts parts) = _
    unfold readDuration?
    split
    case h_1 text htext =>
      exact absurd (htext ▸ List.mem_cons_self) (minus_notMem_writeParts h)
    case h_2 =>
      rw [readParts?_writeParts hne h]
      rfl

/-! ### Numbers of seconds -/

/-- Parts that say so many seconds, in the order of the units, of which each is less than the unit
before, and none is zero unless it is the only one. -/
structure IsReduced (parts : List (ℕ × Char)) (seconds : ℤ) : Prop where
  /-- The units stand in their order, each of them once at most. -/
  letters : (parts.map Prod.snd).Sublist ['d', 'h', 'm', 's']
  /-- No seconds at all are a part of their own. -/
  eq_of_zero : seconds = 0 → parts = [(0, 's')]
  /-- Otherwise no part is zero. -/
  ne_zero : seconds ≠ 0 → ∀ part ∈ parts, part.1 ≠ 0
  /-- There is less than a day in hours. -/
  hours_lt : ∀ n, (n, 'h') ∈ parts → n < 24
  /-- There is less than an hour in minutes. -/
  minutes_lt : ∀ n, (n, 'm') ∈ parts → n < 60
  /-- There is less than a minute in seconds. -/
  seconds_lt : ∀ n, (n, 's') ∈ parts → n < 60

/-- The parts that are written for a whole number of seconds. -/
def partsOf (seconds : ℕ) : List (ℕ × Char) :=
  if seconds = 0 then [(0, 's')] else durationParts durationUnits seconds

/-- The parts that are written for a number of seconds say it in the way of the units.

**Proof sketch.** No seconds are the part of zero seconds. Otherwise the letters come in the order
of the units, and each part is less than the unit before it (`count_mul_lt`). -/
lemma isReduced_partsOf (seconds : ℕ) : IsReduced (partsOf seconds) seconds := by
  unfold partsOf
  split
  case isTrue h =>
    subst h
    exact ⟨by decide, fun _ => rfl, fun h => absurd rfl h, by simp, by simp, by simp⟩
  case isFalse h =>
    have hbound : ∀ part ∈ durationParts durationUnits seconds, ∃ bound size,
        (bound, part.2, size) ∈ ((seconds + 1) :: durationUnits.map Prod.snd).zip durationUnits ∧
          part.1 * size < bound :=
      fun part => count_mul_lt (by decide) (Nat.lt_succ_self _)
    refine ⟨letters_sublist durationUnits seconds, fun h' => absurd (by exact_mod_cast h') h,
      fun _ part => count_ne_zero, ?_, ?_, ?_⟩ <;>
    · intro n hn
      obtain ⟨bound, size, hmem, hlt⟩ := hbound _ hn
      obtain ⟨rfl, rfl⟩ : bound = _ ∧ size = _ := by simpa [durationUnits] using hmem
      exact Nat.lt_of_mul_lt_mul_right hlt

/-- They say the number of seconds.

**Proof sketch.** The last unit is a second, so nothing is left behind the parts
(`total_durationParts`). -/
lemma total_partsOf (seconds : ℕ) : total (partsOf seconds) = seconds := by
  unfold partsOf
  split
  case isTrue h =>
    rw [h]
    rfl
  case isFalse h =>
    have hunits : ∀ unit ∈ durationUnits, secondsOf unit.1 = unit.2 := by decide
    have htotal := total_durationParts hunits seconds
    have hleft : durationUnits.foldl (fun left unit => left % unit.2) seconds = 0 :=
      Nat.mod_one _
    rwa [hleft, Nat.add_zero] at htotal

/-- At least one part is written. -/
lemma partsOf_ne_nil (seconds : ℕ) : partsOf seconds ≠ [] := by
  intro h
  have htotal := total_partsOf seconds
  rw [h] at htotal
  have hzero : seconds = 0 := htotal.symm
  rw [hzero] at h
  cases h

/-- A length of time is written in these parts, with a sign if there are seconds at all. -/
lemma writeDuration_eq (x : Float) :
    writeDuration x = minusIf (isNegative x && wholeSeconds x != 0) ++
      writeParts (partsOf (wholeSeconds x)) := by
  unfold writeDuration partsOf
  split
  case isTrue h =>
    rw [bne_eq_false_iff_eq.2 h, Bool.and_false]
    rfl
  case isFalse h =>
    rw [bne_iff_ne.2 h, Bool.and_true]
    rfl

/-- If 64 bits are enough for the rounded magnitude, no seconds are lost. -/
lemma cast_wholeSeconds {x : Float} (hfits : round |(Binary.ofFloat x).value| < 2 ^ 64) :
    (wholeSeconds x : ℤ) = round |(Binary.ofFloat x).value| := by
  rw [Binary.abs_value, ← Binary.cast_roundedMagnitude_up] at hfits ⊢
  unfold wholeSeconds
  omega

/-- The rounded number of seconds is the number of whole seconds with the sign. -/
lemma roundAway_eq {x : Float} (hx : x.isFinite = true)
    (hfits : round |(Binary.ofFloat x).value| < 2 ^ 64) :
    roundAway (Binary.ofFloat x).value =
      if isNegative x then -(wholeSeconds x : ℤ) else wholeSeconds x := by
  rw [cast_wholeSeconds hfits]
  split
  case isTrue h => exact roundAway_of_neg ((isNegative_iff hx).1 h)
  case isFalse h => exact roundAway_of_nonneg (not_lt.1 fun hlt => h ((isNegative_iff hx).2 hlt))

/-- A length of time is written with the sign of the rounded number of seconds and in reduced parts,
and it is read back as this number.

**Proof sketch.** The seconds that are written are the rounded magnitude, and the sign is written if
they are not zero and the number is negative. The parts are reduced and are read back as their
sum. -/
theorem writeDuration_denotes {x : Float} (hx : x.isFinite = true)
    (hfits : round |(Binary.ofFloat x).value| < 2 ^ 64) :
    (∃ parts, IsReduced parts (round |(Binary.ofFloat x).value|) ∧
      writeDuration x =
        minusIf (decide (roundAway (Binary.ofFloat x).value < 0)) ++ writeParts parts) ∧
      readDuration? (writeDuration x) = some (roundAway (Binary.ofFloat x).value) := by
  have hreduced := isReduced_partsOf (wholeSeconds x)
  have hletters : ∀ part ∈ partsOf (wholeSeconds x), part.2 ∈ ['d', 'h', 'm', 's'] :=
    fun part hpart => hreduced.letters.subset (List.mem_map_of_mem hpart)
  have hneeded : (isNegative x && wholeSeconds x != 0) =
      decide (roundAway (Binary.ofFloat x).value < 0) := by
    rw [roundAway_eq hx hfits, Bool.eq_iff_iff]
    cases isNegative x <;> simp
  constructor
  · rw [cast_wholeSeconds hfits] at hreduced
    exact ⟨_, hreduced, by rw [writeDuration_eq, hneeded]⟩
  · rw [writeDuration_eq, readDuration?_write _ (partsOf_ne_nil _) hletters, total_partsOf,
      roundAway_eq hx hfits]
    cases isNegative x with
    | false => rfl
    | true =>
      rw [Bool.true_and, if_pos rfl, Option.some.injEq]
      split
      case isTrue => rfl
      case isFalse hzero =>
        have hzero : wholeSeconds x = 0 := by simpa using hzero
        rw [hzero]
        rfl

/-- A day, two hours, three minutes and four and a half seconds ago. -/
theorem dayAgo_denotes :
    writeDuration (-93784.5) = "-1d 2h 3m 5s".toList ∧
      (-93784.5 : Float).isFinite = true ∧
      round |(Binary.ofFloat (-93784.5)).value| < 2 ^ 64 ∧
      readDuration? (writeDuration (-93784.5)) = some (-93785) := by
  have hfinite : (-93784.5 : Float).isFinite = true := by decide +kernel
  have hvalue : Binary.ofFloat (-93784.5) = ⟨true, 6444821765947392, -36⟩ := by decide +kernel
  have hnumber : (Binary.ofFloat (-93784.5)).value = -187569 / 2 := by
    rw [hvalue, Binary.value, Binary.magnitude]
    norm_num
  have hround : round |(Binary.ofFloat (-93784.5)).value| = 93785 := by
    rw [hnumber]
    norm_num
  have hfits : round |(Binary.ofFloat (-93784.5)).value| < 2 ^ 64 := by
    rw [hround]
    decide
  have hread := (writeDuration_denotes hfinite hfits).2
  rw [roundAway_of_neg (by rw [hnumber]; norm_num), hround] at hread
  exact ⟨by decide +kernel, hfinite, hfits, hread⟩

end Cohort.Report
