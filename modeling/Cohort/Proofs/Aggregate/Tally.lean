import Mathlib.Data.List.MinMax
import Mathlib.Data.Prod.Lex
import Mathlib.Tactic.Lemma
import Cohort.Aggregate.Reduction
set_option relaxedAutoImplicit false
set_option autoImplicit false

/-!
# The most frequent value

Values that count as one make a class. The most frequent value is the first one whose class is not
smaller than any other. It can also be found with a tally, which has a slot for each class, with the
number of values so far and the first of them. Slots are in no particular order. This does not
matter: the slot with the greatest number, and of several the one with the earliest value, holds the
most frequent value, since no two slots have the same earliest value.

## Main definitions

* `Cohort.Aggregate.frequency` — the size of the class of a value.
* `Cohort.Aggregate.Slot`, `Cohort.Aggregate.tally` — the slots of a tally.
* `Cohort.Aggregate.Tallies` — slots that describe a list of values.

## Main results

* `Cohort.Aggregate.mostFrequent?_eq_some` — the first value of the greatest frequency.
* `Cohort.Aggregate.tallies_tally` — a tally describes the values that it recorded.
* `Cohort.Aggregate.mostFrequent?_eq_argmax` — the heaviest slot holds the most frequent value.
-/

namespace Cohort.Aggregate

/-! ### The first element of the greatest weight -/

section

variable {α : Type} {weight : α → ℕ} {l : List α} {a : α}

/-- Only an empty list has no heaviest element. -/
lemma heaviest?_eq_none : heaviest? weight l = none ↔ l = [] := by
  cases l with
  | nil => simp [heaviest?]
  | cons a l =>
    simp only [heaviest?, reduceCtorEq, iff_false]
    split
    · simp
    · split <;> simp

/-- The heaviest element is heavier than those before it and not lighter than those after it.

**Proof sketch.** Induction on the list. The first element is chosen if nothing in the rest is
heavier; then it is not lighter than the heaviest of them, and this one is not lighter than the
others. -/
lemma heaviest?_eq_some (h : heaviest? weight l = some a) :
    ∃ before after, l = before ++ a :: after ∧ (∀ b ∈ before, weight b < weight a) ∧
      ∀ b ∈ after, weight b ≤ weight a := by
  induction l generalizing a with
  | nil => cases h
  | cons x l ih =>
    rw [heaviest?] at h
    cases hrest : heaviest? weight l with
    | none =>
      simp only [hrest] at h
      cases h
      rw [heaviest?_eq_none.1 hrest]
      exact ⟨[], [], rfl, by simp, by simp⟩
    | some b =>
      simp only [hrest] at h
      obtain ⟨before, after, hl, hbefore, hafter⟩ := ih hrest
      by_cases hlt : weight x < weight b
      · rw [if_pos hlt] at h
        cases h
        exact ⟨x :: before, after, by rw [hl, List.cons_append],
          List.forall_mem_cons.2 ⟨hlt, hbefore⟩, hafter⟩
      · rw [if_neg hlt] at h
        cases h
        refine ⟨[], l, rfl, by simp, ?_⟩
        rw [hl]
        have hle := Nat.le_of_not_lt hlt
        intro y hy
        obtain hy | rfl | hy : y ∈ before ∨ y = b ∨ y ∈ after := by simpa using hy
        · exact (hbefore y hy).le.trans hle
        · exact hle
        · exact (hafter y hy).trans hle

end

/-! ### The first value of the greatest frequency -/

variable {vs ws before after : List Json} {v w : Json}

/-- How many values count as one with a value. -/
def frequency (vs : List Json) (v : Json) : ℕ :=
  vs.countP (v.distinctKey == ·.distinctKey)

/-- Values with one key come up equally often. -/
lemma frequency_congr (h : v.distinctKey = w.distinctKey) : frequency vs v = frequency vs w := by
  rw [frequency, frequency, h]

/-- How often a value comes up does not depend on the order. -/
lemma frequency_perm (h : vs.Perm ws) (v : Json) : frequency vs v = frequency ws v :=
  h.countP_eq _

/-- Only among no values is none the most frequent one. -/
lemma mostFrequent?_eq_none : mostFrequent? vs = none ↔ vs = [] := by
  rw [mostFrequent?, Option.map_eq_none_iff, heaviest?_eq_none, keyed, List.map_eq_nil_iff]

/-- The most frequent value is more frequent than those before it and not less frequent than those
after it.

**Proof sketch.** Values are weighed by how often their keys come up. The list of keys with values
is split at the heaviest, and the list of values at the same place. -/
theorem mostFrequent?_eq_some (h : mostFrequent? vs = some v) :
    ∃ before after, vs = before ++ v :: after ∧
      (∀ w ∈ before, frequency vs w < frequency vs v) ∧
      ∀ w ∈ after, frequency vs w ≤ frequency vs v := by
  rw [mostFrequent?, Option.map_eq_some_iff] at h
  obtain ⟨keyedValue, hheaviest, rfl⟩ := h
  obtain ⟨left, right, hsplit, hleft, hright⟩ := heaviest?_eq_some hheaviest
  have hweight : ∀ w : Json, (keyed vs).countP ((w.distinctKey, w).1 == ·.1) = frequency vs w := by
    intro w
    rw [keyed, List.countP_map]
    rfl
  obtain ⟨before, rest, rfl, rfl, hrest⟩ := List.map_eq_append_iff.1 hsplit
  obtain ⟨v, after, rfl, rfl, rfl⟩ := List.map_eq_cons_iff.1 hrest
  refine ⟨before, after, rfl, ?_, ?_⟩
  · intro w hw
    simpa only [hweight] using hleft _ (List.mem_map_of_mem hw)
  · intro w hw
    simpa only [hweight] using hright _ (List.mem_map_of_mem hw)

/-- No value is more frequent than the most frequent one. -/
lemma frequency_le_of_mostFrequent? (h : mostFrequent? vs = some v) (hw : w ∈ vs) :
    frequency vs w ≤ frequency vs v := by
  obtain ⟨before, after, hvs, hbefore, hafter⟩ := mostFrequent?_eq_some h
  rw [hvs] at hw
  obtain hw | rfl | hw : w ∈ before ∨ w = v ∨ w ∈ after := by simpa using hw
  · exact (hbefore w hw).le
  · exact le_rfl
  · exact hafter w hw

/-! ### Tallies -/

/-- A slot of a tally. -/
structure Slot where
  /-- What values of the class have in common. -/
  key : String
  /-- How many there are. -/
  count : ℕ
  /-- The place of the first one. -/
  position : ℕ
  /-- The first one. -/
  value : Json
deriving DecidableEq

/-- Slots are compared by their numbers, then by the places of their first values. -/
def Slot.weight (s : Slot) : ℕ ×ₗ ℕᵒᵈ :=
  toLex (s.count, OrderDual.toDual s.position)

/-- A slot after one more value, which it counts if the value is in its class. -/
def Slot.counting (s : Slot) (v : Json) : Slot :=
  if s.key == v.distinctKey then { s with count := s.count + 1 } else s

/-- A slot keeps its key when a value is counted in it. -/
@[simp] lemma Slot.key_counting (s : Slot) (v : Json) : (s.counting v).key = s.key := by
  rw [counting]
  split <;> rfl

/-- One more value in a tally: it is counted if its class has a slot, and gets a new slot
otherwise. -/
def record (slots : List Slot) (position : ℕ) (v : Json) : List Slot :=
  if slots.any (·.key == v.distinctKey) then slots.map (·.counting v)
  else ⟨v.distinctKey, 1, position, v⟩ :: slots

/-- The tally of values, one after the other. -/
def tally (vs : List Json) : List Slot :=
  vs.zipIdx.foldl (fun slots placed => record slots placed.2 placed.1) []

/-- A slot describes the class of its value in a list. -/
structure Slot.Describes (s : Slot) (vs : List Json) : Prop where
  /-- Its value stands at its place. -/
  stands : vs[s.position]? = some s.value
  /-- It has the key of its value. -/
  key : s.key = s.value.distinctKey
  /-- It counts the class. -/
  count : s.count = frequency vs s.value
  /-- Its value is the first one of the class. -/
  first : ∀ i v, i < s.position → vs[i]? = some v → v.distinctKey ≠ s.key

/-- Slots describe a list of values, each a class and together all of them. -/
structure Tallies (slots : List Slot) (vs : List Json) : Prop where
  /-- Each slot describes a class. -/
  describes : ∀ s ∈ slots, s.Describes vs
  /-- Each value has a slot. -/
  covers : ∀ v ∈ vs, ∃ s ∈ slots, s.key = v.distinctKey

variable {slots : List Slot} {s : Slot}

/-- The order of slots does not matter. -/
lemma Tallies.perm {slots' : List Slot} (h : Tallies slots vs) (hperm : slots'.Perm slots) :
    Tallies slots' vs where
  describes s hs := h.describes s (hperm.mem_iff.1 hs)
  covers v hv := by
    obtain ⟨s, hs, hkey⟩ := h.covers v hv
    exact ⟨s, hperm.mem_iff.2 hs, hkey⟩

/-- A value that is added at the end counts for the values with its key. -/
lemma frequency_append_singleton (vs : List Json) (v w : Json) :
    frequency (vs ++ [w]) v = frequency vs v + if v.distinctKey = w.distinctKey then 1 else 0 := by
  simp [frequency, List.countP_append, List.countP_singleton]

/-- The position of a slot lies within the values that it describes. -/
lemma Slot.Describes.position_lt (h : s.Describes vs) : s.position < vs.length :=
  (List.getElem?_eq_some_iff.1 h.stands).1

/-- A slot still describes its class after one more value.

**Proof sketch.** The place of the slot and the values before it do not change behind its end, and
the new value counts in the slot exactly if it has its key. -/
lemma Slot.Describes.counting (h : s.Describes vs) (w : Json) :
    (s.counting w).Describes (vs ++ [w]) := by
  have hstands : (vs ++ [w])[s.position]? = some s.value :=
    (List.getElem?_append_left h.position_lt).trans h.stands
  have hfirst : ∀ i v, i < s.position → (vs ++ [w])[i]? = some v → v.distinctKey ≠ s.key := by
    intro i v hi hv
    rw [List.getElem?_append_left (hi.trans h.position_lt)] at hv
    exact h.first i v hi hv
  have hcount := frequency_append_singleton vs s.value w
  rw [← h.key, ← h.count] at hcount
  rw [Slot.counting]
  split
  case isTrue hkey =>
    rw [if_pos (beq_iff_eq.1 hkey)] at hcount
    exact ⟨hstands, h.key, hcount.symm, hfirst⟩
  case isFalse hkey =>
    rw [if_neg (mt beq_iff_eq.2 hkey)] at hcount
    exact ⟨hstands, h.key, hcount.symm, hfirst⟩

/-- A value that has no slot is the first one of its class.

**Proof sketch.** Each value before it is counted by a slot, and no slot has its key. So no value
before it is of its class. -/
lemma Tallies.describes_new (h : Tallies slots vs) (hnew : ∀ s ∈ slots, s.key ≠ v.distinctKey) :
    Slot.Describes ⟨v.distinctKey, 1, vs.length, v⟩ (vs ++ [v]) := by
  have hother : ∀ w ∈ vs, w.distinctKey ≠ v.distinctKey := by
    intro w hw
    obtain ⟨s, hs, hkey⟩ := h.covers w hw
    exact hkey ▸ hnew s hs
  refine ⟨by simp, rfl, ?_, ?_⟩
  · have hnone : frequency vs v = 0 :=
      List.countP_eq_zero.2 fun w hw => by simpa using (hother w hw).symm
    rw [frequency_append_singleton, hnone, if_pos rfl]
  · intro i w hi hw
    rw [List.getElem?_append_left hi] at hw
    exact hother w (List.mem_of_getElem? hw)

/-- Slots that describe a list still do so once another value is recorded.

**Proof sketch.** If a slot has the key of the value, it counts the value, and the others stay as
they are. If none has, a slot is opened for it, and the value is the first one with its key. -/
lemma Tallies.record (h : Tallies slots vs) (v : Json) :
    Tallies (record slots vs.length v) (vs ++ [v]) := by
  rw [Aggregate.record]
  split
  case isTrue hany =>
    obtain ⟨s, hs, hkey⟩ := List.any_eq_true.1 hany
    have hcovers : ∀ w ∈ vs ++ [v], ∃ s ∈ slots, s.key = w.distinctKey := by
      intro w hw
      obtain hw | rfl : w ∈ vs ∨ w = v := by simpa using hw
      · exact h.covers w hw
      · exact ⟨s, hs, beq_iff_eq.1 hkey⟩
    refine ⟨?_, ?_⟩
    · intro s' hs'
      obtain ⟨s, hs, rfl⟩ := List.mem_map.1 hs'
      exact (h.describes s hs).counting v
    · intro w hw
      obtain ⟨s, hs, hkey⟩ := hcovers w hw
      exact ⟨_, List.mem_map_of_mem hs, (s.key_counting v).trans hkey⟩
  case isFalse hany =>
    have hnew : ∀ s ∈ slots, s.key ≠ v.distinctKey := by simpa using hany
    refine ⟨List.forall_mem_cons.2 ⟨h.describes_new hnew, ?_⟩, ?_⟩
    · intro s hs
      have hdescribes := (h.describes s hs).counting v
      rwa [Slot.counting, if_neg (mt beq_iff_eq.1 (hnew s hs))] at hdescribes
    · intro w hw
      obtain hw | rfl : w ∈ vs ∨ w = v := by simpa using hw
      · obtain ⟨s, hs, hkey⟩ := h.covers w hw
        exact ⟨s, List.mem_cons_of_mem _ hs, hkey⟩
      · exact ⟨_, List.mem_cons_self, rfl⟩

/-- A tally describes the values that it recorded.

**Proof sketch.** Induction on the values, from the last one backwards. -/
theorem tallies_tally (vs : List Json) : Tallies (tally vs) vs := by
  induction vs using List.reverseRecOn with
  | nil => exact ⟨by simp [tally], by simp⟩
  | append_singleton vs v ih =>
    have htally : tally (vs ++ [v]) = Aggregate.record (tally vs) vs.length v := by
      simp [tally, List.zipIdx_append]
    rw [htally]
    exact ih.record v

/-- The value of a slot stands before a place, or is the one that stands there, or stands later. -/
lemma Slot.Describes.value_cases (h : s.Describes (before ++ v :: after)) :
    s.value ∈ before ∨ s.position = before.length ∧ s.value = v ∨ before.length < s.position := by
  have hstands := h.stands
  rcases lt_trichotomy s.position before.length with hlt | heq | hgt
  · rw [List.getElem?_append_left hlt] at hstands
    exact .inl (List.mem_of_getElem? hstands)
  · rw [heq] at hstands
    exact .inr (.inl ⟨heq, by simpa using hstands.symm⟩)
  · exact .inr (.inr hgt)

/-- The slot of a value stands at it if all values before it are in other classes. -/
lemma Slot.Describes.position_eq (h : s.Describes (before ++ v :: after))
    (hkey : s.key = v.distinctKey) (hbefore : ∀ w ∈ before, w.distinctKey ≠ v.distinctKey) :
    s.position = before.length := by
  obtain hvalue | ⟨hposition, -⟩ | hlater := h.value_cases
  · exact absurd (h.key.symm.trans hkey) (hbefore _ hvalue)
  · exact hposition
  · exact absurd hkey.symm (h.first before.length v hlater (by simp))

/-- The heaviest slot of those that describe a list holds the most frequent value.

**Proof sketch.** The slot of the most frequent value has the greatest number and stands where the
value does. A slot that is not lighter has the same number and stands no later, and before the value
there are only less frequent ones. -/
theorem mostFrequent?_eq_argmax (h : Tallies slots vs) :
    mostFrequent? vs = (slots.argmax Slot.weight).map Slot.value := by
  cases hmost : mostFrequent? vs with
  | none =>
    have hslots : slots = [] := by
      rw [mostFrequent?_eq_none] at hmost
      subst hmost
      rw [List.eq_nil_iff_forall_not_mem]
      intro s hs
      exact absurd (h.describes s hs).position_lt (Nat.not_lt_zero _)
    rw [hslots]
    rfl
  | some v =>
    have hmax := fun w => frequency_le_of_mostFrequent? (w := w) hmost
    obtain ⟨before, after, rfl, hbefore, -⟩ := mostFrequent?_eq_some hmost
    obtain ⟨s, hs, hkey⟩ := h.covers v (by simp)
    have hposition : s.position = before.length := by
      refine (h.describes s hs).position_eq hkey ?_
      intro w hw hsame
      exact (hbefore w hw).ne (frequency_congr hsame)
    have hcount : s.count = frequency (before ++ v :: after) v := by
      rw [(h.describes s hs).count]
      exact frequency_congr ((h.describes s hs).key.symm.trans hkey)
    cases hheaviest : slots.argmax Slot.weight with
    | none =>
      rw [List.argmax_eq_none.1 hheaviest] at hs
      cases hs
    | some m =>
      have hm := List.argmax_mem hheaviest
      have hvalue : m.value ∈ before ++ v :: after :=
        List.mem_of_getElem? (h.describes m hm).stands
      have hfrequency := hmax m.value hvalue
      rw [← (h.describes m hm).count, ← hcount] at hfrequency
      have hle := List.le_of_mem_argmax hs hheaviest
      rw [Slot.weight, Slot.weight, Prod.Lex.toLex_le_toLex] at hle
      -- the slot `m` is not lighter than `s`, which already counts the largest class: so they count
      -- the same, and the value of `m` does not stand behind `v`
      obtain hless | ⟨hsame, hearlier⟩ := hle
      · exact absurd hfrequency (not_le.2 hless)
      obtain hbefore' | ⟨-, hv⟩ | hlater := (h.describes m hm).value_cases
      · have hless := hbefore _ hbefore'
        rw [← (h.describes m hm).count, ← hcount] at hless
        exact absurd hsame hless.ne'
      · rw [Option.map_some, hv]
      · exact absurd (hposition ▸ OrderDual.toDual_le_toDual.1 hearlier) (not_le.2 hlater)

end Cohort.Aggregate
