import Mathlib.Data.Option.Basic
import Mathlib.Tactic.Lemma
import Cohort.Uuid
set_option relaxedAutoImplicit false
set_option autoImplicit false

/-!
# Reading written identifiers

The digits of an identifier name it, and the hyphens between them tell the form in which it is
written from the others.

## Main results

* `Cohort.Uuid.ofDigits?_digits` — an identifier from its digits.
* `Cohort.Uuid.ofText?_write` — an identifier from its text.
-/

namespace Cohort.Uuid

variable (id : Uuid)

/-- A digit stands for its value. -/
lemma valueOfDigit?_digitChar {n : Nat} (h : n < 16) :
    valueOfDigit? (Nat.digitChar n) = some n := by
  have hall : ∀ n < 16, valueOfDigit? (Nat.digitChar n) = some n := by decide
  exact hall n h

/-- No digit is a hyphen. -/
lemma digit_ne_hyphen (place : Nat) : id.digit place ≠ '-' := by
  have hall : ∀ n < 16, Nat.digitChar n ≠ '-' := by decide
  exact hall _ (Nat.mod_lt _ (by decide))

/-- An identifier has thirty-two digits. -/
lemma length_digits : id.digits.length = 32 := rfl

/-- The first digits of an identifier are the digits of its value without the last places.

**Proof sketch.** By induction on their number: the next digit is the last one of a quotient, and
the digits before it are those of a sixteenth of that quotient. -/
lemma foldl_digits {count : Nat} (h : count ≤ 32) :
    ((List.range count).map fun i => id.value / Nat.pow 16 (31 - i) % 16).foldl
      (fun n d => 16 * n + d) 0 = id.value / Nat.pow 16 (32 - count) := by
  induction count with
  | zero => exact (Nat.div_eq_of_lt id.value_lt).symm
  | succ count ih =>
    have hplace : 32 - count = 31 - count + 1 := by omega
    have hnext : 32 - (count + 1) = 31 - count := by omega
    have hpower : Nat.pow 16 (31 - count + 1) = Nat.pow 16 (31 - count) * 16 := rfl
    rw [List.range_succ, List.map_append, List.foldl_append, ih (by omega), hplace, hpower, hnext,
      ← Nat.div_div_eq_div_mul]
    exact Nat.div_add_mod (id.value / Nat.pow 16 (31 - count)) 16

/-- An identifier is found again from its digits.

**Proof sketch.** The digits are the quotients by the powers of sixteen, so they are read one by one
and add up to the value, which is in its range. -/
theorem ofDigits?_digits : ofDigits? id.digits = some id := by
  have hdigit : ∀ i, valueOfDigit? (id.digit (31 - i)) =
      some (id.value / Nat.pow 16 (31 - i) % 16) := fun i =>
    valueOfDigit?_digitChar (Nat.mod_lt _ (by decide))
  have hvalues : id.digits.mapM valueOfDigit? =
      some ((List.range 32).map fun i => id.value / Nat.pow 16 (31 - i) % 16) := by
    have hcomp : (valueOfDigit? ∘ fun i => id.digit (31 - i)) =
        fun i => some (id.value / Nat.pow 16 (31 - i) % 16) := funext hdigit
    rw [digits, List.mapM_map, hcomp]
    exact List.mapM_pure
  have hvalue : ((List.range 32).map fun i => id.value / Nat.pow 16 (31 - i) % 16).foldl
      (fun n d => 16 * n + d) 0 = id.value :=
    (id.foldl_digits (Nat.le_refl 32)).trans (Nat.div_one id.value)
  rw [ofDigits?, guard, if_pos id.length_digits]
  simp only [hvalues, hvalue, Option.bind_eq_bind, Option.bind_some, Option.pure_def,
    id.value_lt, dite_true]

/-- Hyphens are all that is added to the digits.

**Proof sketch.** A digit is no hyphen, so the groups stay as they are, and the hyphens between them
are dropped. -/
lemma filter_hyphenate : (hyphenate id.digits).filter (· ≠ '-') = id.digits := by
  have hdigits : ∀ c ∈ id.digits, decide (c ≠ '-') = true := by
    intro c hc
    obtain ⟨i, -, rfl⟩ := List.mem_map.1 hc
    exact decide_eq_true (id.digit_ne_hyphen (31 - i))
  have htake : ∀ n m, ((id.digits.drop n).take m).filter (· ≠ '-') = (id.digits.drop n).take m :=
    fun n m => List.filter_eq_self.2 fun c hc =>
      hdigits c (List.mem_of_mem_drop (List.mem_of_mem_take hc))
  have hfirst : (id.digits.take 8).filter (· ≠ '-') = id.digits.take 8 := htake 0 8
  have hlast : (id.digits.drop 20).filter (· ≠ '-') = id.digits.drop 20 :=
    List.filter_eq_self.2 fun c hc => hdigits c (List.mem_of_mem_drop hc)
  have hskip : ∀ cs, ('-' :: cs).filter (· ≠ '-') = cs.filter (· ≠ '-') := fun _ => rfl
  simp only [hyphenate, List.filter_append, hskip, htake, hfirst, hlast]
  rfl

/-- An identifier is found again in its text. -/
theorem ofText?_write : ofText? id.write = some id := by
  have hplain : ofDigits? (hyphenate id.digits) = none := rfl
  have hgroups : ofGroups? (hyphenate id.digits) = some id := by
    rw [ofGroups?, ungroup?, filter_hyphenate, if_pos (by simp [length_digits]), Option.bind_some,
      ofDigits?_digits]
  rw [ofText?, write, String.toList_ofList, hplain, hgroups]
  rfl

end Cohort.Uuid
