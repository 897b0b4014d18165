import Cohort.Json.Basic
import Cohort.Proofs.Decimal.Rounding
set_option relaxedAutoImplicit false
set_option autoImplicit false

/-!
# The meaning of JSON values

A number can be written in two forms: `3` is a whole number and `3.0` is a float, but both mean the
same number. So the meaning of a value is a tree with rational numbers in place of the numbers, and
different values can have the same meaning. They cannot if each of their numbers is settled, that
is, if no float has the value of a whole number of 64 bits.

## Main definitions

* `Cohort.Json.Number.value` — the rational number that a number means.
* `Cohort.Json.Meaning`, `Cohort.Json.meaning` — what a value means.
* `Cohort.Json.IsSettled` — values whose numbers have one form only.

## Main results

* `Cohort.Decimal.Binary.value_inj` — a float other than zero is identified by its value.
* `Cohort.Json.meaning_inj` — settled values are identified by what they mean. -/

namespace Cohort

/-! ### Numbers -/

namespace Decimal.Binary

variable {b b' : Binary}

/-- A binary number of a float lies in the interval of numbers that round to this float. -/
lemma holds_magnitude (h : 0 < b.significand) : (Interval.ofBinary b).Holds b.magnitude := by
  obtain ⟨hlower, hupper⟩ := Interval.magnitude_between_ends h
  rw [Interval.Holds]
  split
  · exact ⟨hlower.le, hupper.le⟩
  · exact ⟨hlower, hupper⟩

/-- A canonical number other than zero is identified by its value.

**Proof sketch.** The values have one sign and one magnitude, and a magnitude lies in its own
interval only. -/
theorem value_inj (h : b.IsCanonical) (h' : b'.IsCanonical) (hne : b.value ≠ 0) :
    b.value = b'.value ↔ b = b' := by
  constructor
  · intro heq
    have hne' : b'.value ≠ 0 := heq ▸ hne
    have hmagnitude : b.magnitude = b'.magnitude := by rw [← abs_value, heq, abs_value]
    have hnegative : b.negative = b'.negative := by
      rw [Bool.eq_iff_iff, negative_iff hne, negative_iff hne', heq]
    -- one magnitude lies in the intervals of both numbers, so they are the same
    have hholds := holds_magnitude (significand_pos hne')
    rw [← hmagnitude] at hholds
    obtain ⟨hsignificand, hexponent⟩ :=
      Interval.eq_of_holds h h' (holds_magnitude (significand_pos hne)) hholds
    cases b
    cases b'
    cases hnegative
    cases hsignificand
    cases hexponent
    rfl
  · exact congrArg value

end Decimal.Binary

namespace Json

namespace Number

variable {n m : Number}

/-- The number that a number means. -/
def value : Number → ℚ
  | .integer n _ => n
  | .float x _ => (Decimal.Binary.ofFloat x).value

/-- A number is a whole number of 64 bits if it has the value of one. -/
def IsSettled (n : Number) : Prop :=
  ∀ (i : ℤ) hi, n.value = i → n = .integer i hi

/-- A whole number of 64 bits is settled. -/
lemma isSettled_integer (i : ℤ) (hi : -0x8000000000000000 ≤ i ∧ i < 0x10000000000000000) :
    (integer i hi).IsSettled := by
  intro j hj h
  obtain rfl := Int.cast_inj.1 h
  rfl

/-- Settled numbers are identified by their values.

**Proof sketch.** A settled number with the value of a whole number of 64 bits is this number. Two
floats have values other than zero, since zero is a whole number, and there a float is identified by
its value. -/
theorem value_inj (hn : n.IsSettled) (hm : m.IsSettled) : n.value = m.value ↔ n = m := by
  constructor
  · intro heq
    cases n with
    | integer i hi => exact (hm i hi heq.symm).symm
    | float x hx =>
      cases m with
      | integer j hj => exact hn j hj heq
      | float y hy =>
        have hzero : (Decimal.Binary.ofFloat x).value ≠ 0 := by
          intro hzero
          cases hn 0 (by decide) (hzero.trans Int.cast_zero.symm)
        have hbinary := (Decimal.Binary.value_inj (Decimal.Binary.isCanonical_ofFloat x)
          (Decimal.Binary.isCanonical_ofFloat y) hzero).1 heq
        obtain rfl := Decimal.Binary.ofFloat_inj.1 hbinary
        rfl
  · exact congrArg value

end Number

/-! ### Values -/

/-- What a value means. -/
inductive Meaning where
  /-- Nothing. -/
  | null
  /-- A truth value. -/
  | bool (b : Bool)
  /-- A number. -/
  | number (value : ℚ)
  /-- A text. -/
  | string (s : String)
  /-- A list of meanings. -/
  | array (items : List Meaning)
  /-- Meanings under names. -/
  | object (fields : List (String × Meaning))

mutual

/-- What a value means. -/
def meaning : Json → Meaning
  | .null => .null
  | .bool b => .bool b
  | .number n => .number n.value
  | .string s => .string s
  | .array items => .array (meanings items)
  | .object fields => .object (fieldMeanings fields)

/-- What values mean. -/
def meanings : List Json → List Meaning
  | [] => []
  | v :: vs => meaning v :: meanings vs

/-- What members of an object mean. -/
def fieldMeanings : List (String × Json) → List (String × Meaning)
  | [] => []
  | (name, v) :: fields => (name, meaning v) :: fieldMeanings fields

end

/-- All numbers of a value, however deep inside, are settled. -/
inductive IsSettled : Json → Prop
  | null : IsSettled .null
  | bool (b : Bool) : IsSettled (.bool b)
  | number {n : Number} (h : n.IsSettled) : IsSettled (.number n)
  | string (s : String) : IsSettled (.string s)
  | array {items : List Json} (h : ∀ v ∈ items, IsSettled v) : IsSettled (.array items)
  | object {fields : List (String × Json)} (h : ∀ field ∈ fields, IsSettled field.2) :
      IsSettled (.object fields)

mutual

/-- Settled values are identified by what they mean.

**Proof sketch.** Induction on the value. A meaning is of the same kind as the value. -/
theorem eq_of_meaning : (v w : Json) → v.IsSettled → w.IsSettled → v.meaning = w.meaning → v = w
  | .null, w, _, _, h => by
    cases w with
    | null => rfl
    | _ => simp [meaning] at h
  | .bool b, w, _, _, h => by
    cases w with
    | bool b' => rw [Meaning.bool.inj h]
    | _ => simp [meaning] at h
  | .number n, w, .number hn, hw, h => by
    cases w with
    | number m =>
      cases hw with
      | number hm => rw [(Number.value_inj hn hm).1 (by simpa [meaning] using h)]
    | _ => simp [meaning] at h
  | .string s, w, _, _, h => by
    cases w with
    | string t => rw [Meaning.string.inj h]
    | _ => simp [meaning] at h
  | .array vs, w, .array hvs, hw, h => by
    cases w with
    | array ws =>
      cases hw with
      | array hws => rw [eq_of_meanings vs ws hvs hws (by simpa [meaning] using h)]
    | _ => simp [meaning] at h
  | .object fields, w, .object hfields, hw, h => by
    cases w with
    | object fields' =>
      cases hw with
      | object hfields' =>
        rw [eq_of_fieldMeanings fields fields' hfields hfields' (by simpa [meaning] using h)]
    | _ => simp [meaning] at h

/-- Settled values in a list are identified by what they mean. -/
theorem eq_of_meanings : (vs ws : List Json) → (∀ v ∈ vs, v.IsSettled) → (∀ w ∈ ws, w.IsSettled) →
    meanings vs = meanings ws → vs = ws
  | [], [], _, _, _ => rfl
  | [], _ :: _, _, _, h => by simp [meanings] at h
  | _ :: _, [], _, _, h => by simp [meanings] at h
  | v :: vs, w :: ws, hvs, hws, h => by
    obtain ⟨hv, hvs⟩ := List.forall_mem_cons.1 hvs
    obtain ⟨hw, hws⟩ := List.forall_mem_cons.1 hws
    rw [meanings, meanings, List.cons.injEq] at h
    rw [eq_of_meaning v w hv hw h.1, eq_of_meanings vs ws hvs hws h.2]

/-- Settled members of an object are identified by what they mean. -/
theorem eq_of_fieldMeanings : (fields fields' : List (String × Json)) →
    (∀ field ∈ fields, field.2.IsSettled) → (∀ field ∈ fields', field.2.IsSettled) →
    fieldMeanings fields = fieldMeanings fields' → fields = fields'
  | [], [], _, _, _ => rfl
  | [], _ :: _, _, _, h => by simp [fieldMeanings] at h
  | _ :: _, [], _, _, h => by simp [fieldMeanings] at h
  | (name, v) :: fields, (name', w) :: fields', hfields, hfields', h => by
    obtain ⟨hv, hfields⟩ := List.forall_mem_cons.1 hfields
    obtain ⟨hw, hfields'⟩ := List.forall_mem_cons.1 hfields'
    rw [fieldMeanings, fieldMeanings, List.cons.injEq, Prod.mk.injEq] at h
    rw [h.1.1, eq_of_meaning v w hv hw h.1.2,
      eq_of_fieldMeanings fields fields' hfields hfields' h.2]

end

/-- Settled values are identified by what they mean. -/
theorem meaning_inj {v w : Json} (hv : v.IsSettled) (hw : w.IsSettled) :
    v.meaning = w.meaning ↔ v = w :=
  ⟨eq_of_meaning v w hv hw, congrArg meaning⟩

end Json

end Cohort
