set_option autoImplicit false

/-!
# Indexes

An index holds values under keys and lists them in the order of the keys. The order is part of the
type, so two indexes with the same look-ups are equal.

## Main definitions

* `Cohort.Index` — values under keys, in key order.
* `Cohort.Index.get?`, `Cohort.Index.insert`, `Cohort.Index.erase` — look-up and change.

## Main results

* `Cohort.Index.get?_insert`, `Cohort.Index.get?_erase` — what a look-up finds after a change.
* `Cohort.Index.ext_get?` — an index is determined by its look-ups.
-/

namespace Cohort

/-- The order of keys is strict and linear. -/
class Key (κ : Type) [LT κ] : Prop where
  /-- No key comes before itself. -/
  lt_irrefl : ∀ k : κ, ¬ k < k
  /-- The order is transitive. -/
  lt_trans : ∀ {j k l : κ}, j < k → k < l → j < l
  /-- Of two different keys one comes first. -/
  lt_of_not_lt : ∀ {j k : κ}, ¬ j < k → j ≠ k → k < j

/-- Texts are ordered character by character. -/
instance : Key String where
  lt_irrefl := String.lt_irrefl
  lt_trans := String.lt_trans
  lt_of_not_lt h hne :=
    String.not_le.1 fun hle => h (String.not_le.1 fun hle' => hne (String.le_antisymm hle hle'))

/-- Values under keys, in key order. -/
structure Index (κ : Type) [LT κ] (α : Type) where
  /-- The keys with their values. -/
  entries : List (κ × α)
  /-- The keys are in ascending order. -/
  sorted : entries.Pairwise fun a b => a.1 < b.1

namespace Index

variable {κ : Type} [LT κ] {α : Type}

/-- The index without keys. -/
def empty : Index κ α := ⟨[], .nil⟩

/-- An index has no keys unless it is given some. -/
instance : Inhabited (Index κ α) := ⟨empty⟩

/-- Two indices are the same if their entries are. -/
instance [DecidableEq κ] [DecidableEq α] : DecidableEq (Index κ α) := fun a b =>
  decidable_of_iff (a.entries = b.entries) ⟨fun h => by cases a; cases b; simp_all, congrArg _⟩

variable [DecidableEq κ]

/-- The value under a key in a list of entries. -/
def find (k : κ) : List (κ × α) → Option α
  | [] => none
  | (j, a) :: rest => if j = k then some a else find k rest

/-- The value under a key. -/
def get? (index : Index κ α) (k : κ) : Option α :=
  find k index.entries

/-- Whether there is a value under a key. -/
def contains (index : Index κ α) (k : κ) : Bool :=
  (index.get? k).isSome

/-- The keys in order. -/
def keys (index : Index κ α) : List κ :=
  index.entries.map Prod.fst

/-- The values in the order of their keys. -/
def values (index : Index κ α) : List α :=
  index.entries.map Prod.snd

/-- The number of keys. -/
def size (index : Index κ α) : Nat :=
  index.entries.length

/-- The index without a key. -/
def erase (index : Index κ α) (k : κ) : Index κ α :=
  ⟨index.entries.filter fun e => e.1 ≠ k, index.sorted.filter _⟩

variable [DecidableLT κ]

/-- Entries with one more at its place, instead of any under the same key. -/
def put (k : κ) (a : α) : List (κ × α) → List (κ × α)
  | [] => [(k, a)]
  | (j, b) :: rest =>
    if k < j then (k, a) :: (j, b) :: rest
    else if k = j then (k, a) :: rest
    else (j, b) :: put k a rest

/-- Every key after a change is the new one or was there before.

**Proof sketch.** Induction on the entries. The new entry stands in front of the first one, or in
its place, or among the rest. -/
theorem mem_put {k : κ} {a : α} {entries : List (κ × α)} {e : κ × α}
    (h : e ∈ put k a entries) : e = (k, a) ∨ e ∈ entries := by
  induction entries with
  | nil => simp_all [put]
  | cons b rest ih =>
    simp only [put] at h
    split at h
    · simp_all
    · split at h
      · simp only [List.mem_cons] at h ⊢
        rcases h with h | h
        · exact .inl h
        · exact .inr (.inr h)
      · simp only [List.mem_cons] at h ⊢
        rcases h with h | h
        · exact .inr (.inl h)
        · exact (ih h).imp id .inr

variable [Key κ]

/-- A change keeps the order of the keys.

**Proof sketch.** Induction on the entries, by where the new key stands to the first one. In front
of it the order is transitive; behind it the keys of the rest are the new one and old ones
(`mem_put`), which come after the first. -/
theorem pairwise_put {k : κ} {a : α} {entries : List (κ × α)}
    (h : entries.Pairwise fun a b => a.1 < b.1) :
    (put k a entries).Pairwise fun a b => a.1 < b.1 := by
  induction entries with
  | nil => simp [put]
  | cons b rest ih =>
    rw [List.pairwise_cons] at h
    simp only [put]
    split
    case isTrue hk =>
      refine List.pairwise_cons.2 ⟨fun e he => ?_, List.pairwise_cons.2 h⟩
      rcases List.mem_cons.1 he with rfl | he
      · exact hk
      · exact Key.lt_trans hk (h.1 e he)
    case isFalse hk =>
      split
      case isTrue heq =>
        subst heq
        exact List.pairwise_cons.2 ⟨h.1, h.2⟩
      case isFalse hne =>
        refine List.pairwise_cons.2 ⟨fun e he => ?_, ih h.2⟩
        rcases mem_put he with rfl | he
        · exact Key.lt_of_not_lt hk hne
        · exact h.1 e he

/-- The index with a value under a key, instead of any that was there. -/
def insert (index : Index κ α) (k : κ) (a : α) : Index κ α :=
  ⟨put k a index.entries, pairwise_put index.sorted⟩

/-- The index of entries in any order; of several under one key the last counts. -/
def ofList (entries : List (κ × α)) : Index κ α :=
  entries.foldl (fun index e => index.insert e.1 e.2) empty

/-! ### Look-ups after changes -/

omit [DecidableLT κ] [Key κ] in

/-- Nothing is found in the index without keys. -/
@[simp] theorem get?_empty (k : κ) : (empty : Index κ α).get? k = none := rfl

omit [Key κ] in

/-- After a value is put under a key, it is found under this key, and under the others what was
there.

**Proof sketch.** Induction on the entries. The pair is put in front, in the place of the first
entry, or further behind. -/
theorem find_put (k j : κ) (a : α) (entries : List (κ × α)) :
    find j (put k a entries) = if k = j then some a else find j entries := by
  induction entries with
  | nil => simp [put, find]
  | cons b rest ih =>
    simp only [put]
    split
    · simp [find]
    · split
      case isTrue heq => subst heq; simp only [find]; split <;> rfl
      case isFalse hne =>
        simp only [find, ih]
        split
        case isTrue heq => subst heq; simp [hne]
        case isFalse => rfl

/-- A look-up after a change finds the new value under its key and the old ones elsewhere. -/
@[simp] theorem get?_insert (index : Index κ α) (k j : κ) (a : α) :
    (index.insert k a).get? j = if k = j then some a else index.get? j :=
  find_put k j a index.entries

omit [LT κ] [DecidableLT κ] [Key κ] in

/-- Without the entries of a key nothing is found under it, and under the others what was there.

**Proof sketch.** Induction on the entries. The first one is left out exactly if it stands under the
key, and only then was the look-up answered by it. -/
theorem find_filter_ne (k j : κ) (entries : List (κ × α)) :
    find j (entries.filter fun e => e.1 ≠ k) = if k = j then none else find j entries := by
  induction entries with
  | nil => simp [find]
  | cons b rest ih =>
    by_cases hb : b.1 = k
    · subst hb
      simp only [find, ne_eq, not_true_eq_false, decide_false, Bool.false_eq_true,
        not_false_eq_true, List.filter_cons_of_neg]
      simp only [ne_eq] at ih
      rw [ih]
      split
      · rfl
      · rfl
    · simp only [find, ne_eq, hb, not_false_eq_true, decide_true, List.filter_cons_of_pos]
      simp only [ne_eq] at ih
      rw [ih]
      split
      case isTrue heq => subst heq; simp [Ne.symm hb]
      case isFalse => rfl

omit [DecidableLT κ] [Key κ] in
/-- A look-up after a key is erased finds nothing under it and the old values elsewhere. -/
@[simp] theorem get?_erase (index : Index κ α) (k j : κ) :
    (index.erase k).get? j = if k = j then none else index.get? j :=
  find_filter_ne k j index.entries

/-! ### Extensionality -/

omit [DecidableLT κ] in
/-- A key that comes before all others of a sorted list is not found in it. -/
theorem find_eq_none_of_lt {k : κ} {entries : List (κ × α)} (h : ∀ e ∈ entries, k < e.1) :
    find k entries = none := by
  induction entries with
  | nil => rfl
  | cons b rest ih =>
    have hb : b.1 ≠ k := fun heq => Key.lt_irrefl k (heq ▸ h b (by simp))
    simp only [find, if_neg hb]
    exact ih fun e he => h e (List.mem_cons_of_mem _ he)

omit [LT κ] [DecidableLT κ] [Key κ] in
/-- A key that is found belongs to one of the entries.

**Proof sketch.** Induction on the entries, up to the first one with the key. -/
theorem mem_of_find_eq_some {k : κ} {a : α} {entries : List (κ × α)}
    (h : find k entries = some a) : (k, a) ∈ entries := by
  induction entries with
  | nil => simp [find] at h
  | cons b rest ih =>
    simp only [find] at h
    split at h
    case isTrue heq =>
      obtain ⟨j, c⟩ := b
      simp_all
    case isFalse => exact List.mem_cons_of_mem _ (ih h)

omit [DecidableLT κ] in
/-- Sorted lists of entries with the same look-ups are equal.

**Proof sketch.** Induction on both lists. Neither of the first keys can come before the other one,
since it would not be found in the other list. So both are the same key, with the same value, and
the rests have the same look-ups. -/
theorem eq_of_find_eq {as bs : List (κ × α)} (ha : as.Pairwise fun a b => a.1 < b.1)
    (hb : bs.Pairwise fun a b => a.1 < b.1) (h : ∀ k, find k as = find k bs) : as = bs := by
  induction as generalizing bs with
  | nil =>
    cases bs with
    | nil => rfl
    | cons b bs => simpa [find] using h b.1
  | cons a as ih =>
    cases bs with
    | nil => simpa [find] using h a.1
    | cons b bs =>
      rw [List.pairwise_cons] at ha hb
      -- a smaller key at the front of one list would be found in that list only
      have hab : ¬ a.1 < b.1 := fun hlt => by
        have hnone : find a.1 (b :: bs) = none := find_eq_none_of_lt fun e he => by
          rcases List.mem_cons.1 he with rfl | he
          · exact hlt
          · exact Key.lt_trans hlt (hb.1 e he)
        have := h a.1
        rw [hnone] at this
        simp [find] at this
      have hba : ¬ b.1 < a.1 := fun hlt => by
        have hnone : find b.1 (a :: as) = none := find_eq_none_of_lt fun e he => by
          rcases List.mem_cons.1 he with rfl | he
          · exact hlt
          · exact Key.lt_trans hlt (ha.1 e he)
        have := h b.1
        rw [hnone] at this
        simp [find] at this
      have hkey : a.1 = b.1 := Classical.byContradiction fun hne => hba (Key.lt_of_not_lt hab hne)
      have hval : a.2 = b.2 := by simpa [find, hkey] using h a.1
      have hrest : as = bs := by
        refine ih ha.2 hb.2 fun k => ?_
        -- behind the first entries the common key is found in neither list
        by_cases hk : a.1 = k
        · subst hk
          rw [find_eq_none_of_lt ha.1, find_eq_none_of_lt (hkey ▸ hb.1)]
        · have hk' : b.1 ≠ k := hkey ▸ hk
          simpa [find, hk, hk'] using h k
      rw [hrest, Prod.ext hkey hval]

omit [DecidableLT κ] in
/-- An index is determined by its look-ups. -/
theorem ext_get? {a b : Index κ α} (h : ∀ k, a.get? k = b.get? k) : a = b := by
  obtain ⟨as, ha⟩ := a
  obtain ⟨bs, hb⟩ := b
  congr
  exact eq_of_find_eq ha hb h

end Index

end Cohort
