import Mathlib.Data.List.Induction
import Mathlib.Data.List.Nodup
import Mathlib.Tactic.Lemma
import Cohort.Index
set_option relaxedAutoImplicit false
set_option autoImplicit false

/-!
# Keys and values of an index

What an index lists is what can be looked up in it.

## Main definitions

* `Cohort.Index.Lists` — an index of all values with a property, under their own keys.

## Main results

* `Cohort.Index.mem_entries` — the listed keys and values are those of the look-ups.
* `Cohort.Index.nodup_keys` — no key is listed twice.
* `Cohort.Index.contains_erase`, `Cohort.Index.contains_insert` — the keys after a change.
* `Cohort.Index.perm_values_insert`, `Cohort.Index.perm_values_insert_erase` — the values after one.
* `Cohort.Index.get?_ofList` — what is looked up in an index made of a list.
-/

namespace Cohort.Index

variable {κ : Type} [LT κ] {α : Type} [DecidableEq κ] [Key κ]

omit [DecidableEq κ] in
/-- No key is listed twice. -/
lemma nodup_keys (index : Index κ α) : index.keys.Nodup := by
  refine List.pairwise_map.2 (index.sorted.imp fun {a b} hlt heq => ?_)
  rw [heq] at hlt
  exact Key.lt_irrefl b.1 hlt

omit [DecidableEq κ] in

/-- No entry stands in an index twice. -/
lemma nodup_entries (index : Index κ α) : index.entries.Nodup :=
  (List.pairwise_map.1 index.nodup_keys).imp fun hne heq => hne (congrArg Prod.fst heq)

/-- An entry of a sorted list is found under its key.

**Proof sketch.** Induction on the entries. An entry before the one with the key has a smaller
key. -/
lemma find_of_mem {entries : List (κ × α)} (hsorted : entries.Pairwise fun a b => a.1 < b.1)
    {e : κ × α} (he : e ∈ entries) : find e.1 entries = some e.2 := by
  induction entries with
  | nil => simp at he
  | cons b rest ih =>
    rw [List.pairwise_cons] at hsorted
    rcases List.mem_cons.1 he with rfl | he
    · simp [find]
    · have hne : b.1 ≠ e.1 := fun heq => Key.lt_irrefl e.1 (heq ▸ hsorted.1 e he)
      rw [find, if_neg hne]
      exact ih hsorted.2 he

/-- The entries of an index are the keys with what is found under them. -/
lemma mem_entries {index : Index κ α} {k : κ} {a : α} :
    (k, a) ∈ index.entries ↔ index.get? k = some a :=
  ⟨fun h => find_of_mem index.sorted h, mem_of_find_eq_some⟩

/-- The values of an index are those that are found under its keys. -/
lemma mem_values {index : Index κ α} {a : α} :
    a ∈ index.values ↔ ∃ k, index.get? k = some a := by
  simp only [values, List.mem_map, ← mem_entries]
  constructor
  · rintro ⟨⟨k, b⟩, hmem, rfl⟩
    exact ⟨k, hmem⟩
  · rintro ⟨k, hmem⟩
    exact ⟨(k, a), hmem, rfl⟩

/-- The keys of an index are those under which something is found. -/
lemma mem_keys {index : Index κ α} {k : κ} : k ∈ index.keys ↔ ∃ a, index.get? k = some a := by
  simp only [keys, List.mem_map, ← mem_entries]
  constructor
  · rintro ⟨⟨j, a⟩, hmem, rfl⟩
    exact ⟨a, hmem⟩
  · rintro ⟨a, hmem⟩
    exact ⟨(k, a), hmem, rfl⟩

/-- Where values know the keys that they are found under, they are listed in the order of the
keys. -/
lemma map_values {index : Index κ α} {key : α → κ} (h : ∀ k a, index.get? k = some a → key a = k) :
    index.values.map key = index.keys := by
  unfold values keys
  rw [List.map_map]
  exact List.map_congr_left fun entry hentry => h entry.1 entry.2 (mem_entries.1 hentry)

omit [Key κ] in

/-- An index contains a key if something is found under it. -/
lemma contains_iff {index : Index κ α} {k : κ} :
    index.contains k ↔ ∃ a, index.get? k = some a :=
  Option.isSome_iff_exists

omit [Key κ] in
/-- The keys after one is erased are the others. -/
@[simp] lemma contains_erase {index : Index κ α} {k j : κ} :
    (index.erase k).contains j ↔ k ≠ j ∧ index.contains j := by
  rw [contains, get?_erase]
  split <;> simp_all [contains]

section Change

variable [DecidableLT κ]

/-- The keys after a value is put under one are that one and the others. -/
@[simp] lemma contains_insert {index : Index κ α} {k j : κ} {a : α} :
    (index.insert k a).contains j ↔ k = j ∨ index.contains j := by
  rw [contains, get?_insert]
  split <;> simp_all [contains]

/-- A value that is put under a new key joins the others.

**Proof sketch.** Both lists of entries have no repetitions and the same elements. -/
lemma perm_values_insert {index : Index κ α} {k : κ} {a : α} (h : ¬ index.contains k) :
    (index.insert k a).values.Perm (a :: index.values) := by
  have hnew : (k, a) ∉ index.entries := fun hin => h (contains_iff.2 ⟨a, mem_entries.1 hin⟩)
  have hentries : (index.insert k a).entries.Perm ((k, a) :: index.entries) := by
    refine (List.perm_ext_iff_of_nodup (nodup_entries _) ?_).2 ?_
    · exact List.nodup_cons.2 ⟨hnew, nodup_entries index⟩
    · rintro ⟨j, b⟩
      rw [mem_entries, get?_insert, List.mem_cons, mem_entries, Prod.mk.injEq]
      split
      case isTrue hk =>
        subst hk
        have hnone : index.get? k ≠ some b := fun hb => h (contains_iff.2 ⟨b, hb⟩)
        simp [hnone, eq_comm]
      case isFalse hk => simp [Ne.symm hk]
  exact hentries.map Prod.snd

/-- A value takes the place of any that was under its key. -/
lemma insert_erase (index : Index κ α) (k : κ) (a : α) :
    (index.erase k).insert k a = index.insert k a := by
  apply ext_get?
  intro j
  by_cases hk : k = j
  · simp [hk]
  · simp [hk]

/-- To put a value where it is already changes nothing. -/
lemma insert_of_get? {index : Index κ α} {k : κ} {a : α} (h : index.get? k = some a) :
    index.insert k a = index := by
  apply ext_get?
  intro j
  by_cases hk : k = j
  · subst hk
    simp [h]
  · simp [hk]

/-- A value that is put under a key joins those under the other keys. -/
lemma perm_values_insert_erase (index : Index κ α) (k : κ) (a : α) :
    (index.insert k a).values.Perm (a :: (index.erase k).values) := by
  rw [← insert_erase]
  apply perm_values_insert
  simp

/-- The last entry of a list is inserted into the index of those before it. -/
lemma ofList_concat (entries : List (κ × α)) (e : κ × α) :
    ofList (entries ++ [e]) = (ofList entries).insert e.1 e.2 := by
  simp [ofList, List.foldl_append]

/-- If entries under one key have one value, those of a list are looked up in an index that is made
of it.

**Proof sketch.** Induction on the entries, from the last. The last entry decides about its own key,
and entries before it under this key have its value. -/
lemma get?_ofList {entries : List (κ × α)}
    (h : ∀ e ∈ entries, ∀ e' ∈ entries, e.1 = e'.1 → e.2 = e'.2) {k : κ} {a : α} :
    (ofList entries).get? k = some a ↔ (k, a) ∈ entries := by
  induction entries using List.reverseRecOn with
  | nil => simp [ofList]
  | append_singleton entries e ih =>
    have hold : (ofList entries).get? k = some a ↔ (k, a) ∈ entries :=
      ih fun b hb c hc => h b (List.mem_append_left _ hb) c (List.mem_append_left _ hc)
    rw [ofList_concat, get?_insert, List.mem_append, List.mem_singleton]
    split
    case isTrue hk =>
      constructor
      · rintro ⟨rfl⟩
        exact .inr (Prod.ext hk.symm rfl)
      · rintro (hmem | rfl)
        · exact congrArg some (h e (by simp) _ (List.mem_append_left _ hmem) hk)
        · rfl
    case isFalse hk =>
      rw [hold]
      constructor
      · exact Or.inl
      · rintro (hmem | rfl)
        · exact hmem
        · exact absurd rfl hk

/-- If no two entries of a list are under one key, an index that is made of it has all of them.

**Proof sketch.** Induction on the entries, from the last. Its key is not among those before it, so
it adds a value. -/
lemma size_ofList {entries : List (κ × α)} (h : (entries.map Prod.fst).Nodup) :
    (ofList entries).size = entries.length := by
  have hsize : ∀ index : Index κ α, index.size = index.values.length := fun index => by
    rw [size, values, List.length_map]
  induction entries using List.reverseRecOn with
  | nil => rfl
  | append_singleton entries e ih =>
    rw [List.map_append, List.map_singleton, (List.perm_append_singleton _ _).nodup_iff,
      List.nodup_cons] at h
    obtain ⟨hnew, hold⟩ := h
    have hlookup : ∀ b ∈ entries, ∀ c ∈ entries, b.1 = c.1 → b.2 = c.2 := fun b hb c hc heq => by
      rw [List.inj_on_of_nodup_map hold hb hc heq]
    have hfree : ¬ (ofList entries).contains e.1 := fun hin => by
      obtain ⟨a, ha⟩ := contains_iff.1 hin
      exact hnew (List.mem_map.2 ⟨(e.1, a), (get?_ofList hlookup).1 ha, rfl⟩)
    rw [ofList_concat, hsize, (perm_values_insert hfree).length_eq, List.length_cons, ← hsize,
      ih hold, List.length_append, List.length_singleton]

end Change

/-! ### Indexes of values with a property -/

omit [Key κ] in
/-- An index of the values that have a property, each under its own key. -/
def Lists (index : Index κ α) (key : α → κ) (p : α → Prop) : Prop :=
  ∀ k a, index.get? k = some a ↔ p a ∧ key a = k

namespace Lists

variable {index : Index κ α} {key : α → κ} {p q : α → Prop}

omit [Key κ] in

/-- The index without keys lists the values with a property that none has. -/
lemma empty (h : ∀ a, ¬ p a) : (Index.empty : Index κ α).Lists key p := fun k a => by
  simp [h]

omit [Key κ] in

/-- An index of the values with a property lists those with an equivalent property. -/
lemma congr (h : index.Lists key p) (hpq : ∀ a, q a ↔ p a) : index.Lists key q := fun k a => by
  rw [h, hpq]

omit [Key κ] in

/-- The keys are those of the values with the property. -/
lemma contains_iff (h : index.Lists key p) {k : κ} :
    index.contains k ↔ ∃ a, p a ∧ key a = k := by
  rw [Index.contains_iff]
  exact exists_congr fun a => h k a

/-- The values are those with the property. -/
lemma mem_values (h : index.Lists key p) {a : α} : a ∈ index.values ↔ p a := by
  rw [Index.mem_values]
  constructor
  · rintro ⟨k, hk⟩
    exact ((h k a).1 hk).1
  · intro ha
    exact ⟨key a, (h _ a).2 ⟨ha, rfl⟩⟩

/-- Two indexes of the same values are equal. -/
lemma unique {other : Index κ α} (h : index.Lists key p) (hother : other.Lists key p) :
    index = other := by
  refine ext_get? fun k => Option.ext fun a => ?_
  rw [h, hother]

/-- A value is added under its own key, which is free.

**Proof sketch.** Under its own key the new value is the only one, since the key was free. Under the
others nothing changes. -/
lemma insert [DecidableLT κ] (h : index.Lists key p) {b : α} (hfree : ¬ index.contains (key b))
    (hq : ∀ a, q a ↔ p a ∨ a = b) : (index.insert (key b) b).Lists key q := by
  intro k a
  rw [get?_insert, hq]
  split
  case isTrue hk =>
    subst hk
    have hnone : ∀ a, ¬ (p a ∧ key a = key b) := fun a ha =>
      hfree (h.contains_iff.2 ⟨a, ha⟩)
    constructor
    · rintro ⟨rfl⟩
      exact ⟨.inr rfl, rfl⟩
    · rintro ⟨ha | rfl, hkey⟩
      · exact absurd ⟨ha, hkey⟩ (hnone a)
      · rfl
  case isFalse hk =>
    rw [h]
    constructor
    · rintro ⟨ha, hkey⟩
      exact ⟨.inl ha, hkey⟩
    · rintro ⟨ha | rfl, hkey⟩
      · exact ⟨ha, hkey⟩
      · exact absurd hkey hk

end Lists

end Cohort.Index
