import Mathlib.Tactic.Lemma
import Cohort.Proofs.Index
import Cohort.Store
set_option relaxedAutoImplicit false
set_option autoImplicit false

/-!
# What a store holds

Profiles and events come into a store one by one, and each is filed where a query for its profile
looks. So whatever was stored, the profiles of a project are listed by their own identifiers, each
once, and the history of a profile is what a query for all of its events gives.

## Main definitions

* `Cohort.Store.Deposit` — what can be brought into a store.
* `Cohort.Store.after` — the store after deposits, from an empty one.
* `Cohort.Store.Filed` — a store in which everything is filed under its own profile.

## Main results

* `Cohort.Store.filed_after` — after any deposits everything is filed.
* `Cohort.Store.Filed.pairwise_profiles` — profiles are listed in the order of their identifiers.
* `Cohort.Store.Filed.events_all` — a query for all events of a profile gives its history.
-/

namespace Cohort.Store

/-- What can be brought into a store. -/
inductive Deposit where
  /-- A profile, instead of any with its identifier. -/
  | profile (profile : Profile)
  /-- An event, behind those of its profile. -/
  | event (event : Event)

/-- The store with a deposit for a project. -/
def deposit (s : Store) (project : String) : Deposit → Store
  | .profile p => s.upsertProfile project p
  | .event e => s.appendEvent project e

/-- The store after deposits for projects, from an empty one. -/
def after (deposits : List (String × Deposit)) : Store :=
  deposits.foldl (fun s d => s.deposit d.1 d.2) empty

/-- Without deposits the store is empty. -/
@[simp] lemma after_nil : after [] = empty := rfl

/-- The last deposit is made in the store of those before it. -/
@[simp] lemma after_concat (deposits : List (String × Deposit)) (d : String × Deposit) :
    after (deposits ++ [d]) = (after deposits).deposit d.1 d.2 := by
  simp [after, List.foldl_append]

/-! ### What is found after a deposit -/

section LookUp

variable (s : Store) (project other id : String)

/-- A change of a project leaves the others as they are. -/
@[simp] lemma population_change (edit : Population → Population) :
    (s.change project edit).population other =
      if project = other then edit (s.population project) else s.population other := by
  unfold population change
  rw [Index.get?_insert]
  split <;> rfl

/-- A profile that is brought in is found under its identifier. -/
lemma profile?_upsertProfile (p : Profile) :
    (s.upsertProfile project p).profile? other id =
      if project = other ∧ p.id = id then some p else s.profile? other id := by
  unfold profile? upsertProfile
  rw [population_change]
  by_cases hproject : project = other
  · subst hproject
    simp
  · simp [hproject]

/-- A profile that is brought in leaves all histories as they are. -/
lemma history_upsertProfile (p : Profile) :
    (s.upsertProfile project p).history other id = s.history other id := by
  unfold history upsertProfile
  rw [population_change]
  by_cases hproject : project = other
  · subst hproject
    simp
  · simp [hproject]

/-- An event that is brought in leaves all profiles as they are. -/
lemma profile?_appendEvent (e : Event) :
    (s.appendEvent project e).profile? other id = s.profile? other id := by
  unfold profile? appendEvent
  rw [population_change]
  by_cases hproject : project = other
  · subst hproject
    simp
  · simp [hproject]

/-- An event that is brought in comes at the end of the history of its profile. -/
lemma history_appendEvent (e : Event) :
    (s.appendEvent project e).history other id =
      if project = other ∧ e.profileId = id then s.history other id ++ [e]
      else s.history other id := by
  unfold appendEvent
  rw [history, population_change]
  by_cases hproject : project = other
  · subst hproject
    by_cases hid : e.profileId = id
    · subst hid
      simp
    · simp [hid, history]
  · simp [hproject, history]

end LookUp

/-! ### Filing -/

/-- Everything is filed under its own profile. -/
structure Filed (s : Store) : Prop where
  /-- A profile is found under its own identifier only. -/
  profile_id : ∀ {project id : String} {p : Profile}, s.profile? project id = some p → p.id = id
  /-- The history of a profile holds its own events only. -/
  event_profileId : ∀ {project id : String} {e : Event}, e ∈ s.history project id →
    e.profileId = id

/-- In the empty store there is nothing to be filed. -/
lemma filed_empty : empty.Filed where
  profile_id h := by cases h
  event_profileId h := by cases h

/-- A deposit is filed, and all else stays so.

**Proof sketch.** By the deposit. A profile is stored under its identifier, an event is added to the
history of its profile, and the other entries are those before. -/
lemma Filed.deposit {s : Store} (h : s.Filed) (project : String) (d : Deposit) :
    (s.deposit project d).Filed := by
  cases d with
  | profile p =>
    constructor
    · intro other id q hq
      change (s.upsertProfile project p).profile? other id = some q at hq
      rw [profile?_upsertProfile] at hq
      split at hq
      case isTrue hnew =>
        cases hq
        exact hnew.2
      case isFalse => exact h.profile_id hq
    · intro other id e he
      change e ∈ (s.upsertProfile project p).history other id at he
      rw [history_upsertProfile] at he
      exact h.event_profileId he
  | event e =>
    constructor
    · intro other id q hq
      change (s.appendEvent project e).profile? other id = some q at hq
      rw [profile?_appendEvent] at hq
      exact h.profile_id hq
    · intro other id f hf
      change f ∈ (s.appendEvent project e).history other id at hf
      rw [history_appendEvent] at hf
      split at hf
      case isTrue hnew =>
        rcases List.mem_append.1 hf with hf | hf
        · exact h.event_profileId hf
        · rw [List.mem_singleton.1 hf]
          exact hnew.2
      case isFalse => exact h.event_profileId hf

/-- After any deposits everything is filed. -/
theorem filed_after (deposits : List (String × Deposit)) : (after deposits).Filed := by
  induction deposits using List.reverseRecOn with
  | nil => exact filed_empty
  | append_singleton deposits d ih =>
    rw [after_concat]
    exact ih.deposit d.1 d.2

namespace Filed

variable {s : Store} {project : String} (h : s.Filed)

include h

/-- The listed profiles are those that are found under their identifiers. -/
lemma mem_profiles {p : Profile} : p ∈ s.profiles project ↔ s.profile? project p.id = some p := by
  unfold profiles profile?
  rw [Index.mem_values]
  constructor
  · rintro ⟨id, hp⟩
    obtain rfl : p.id = id := h.profile_id hp
    exact hp
  · intro hp
    exact ⟨p.id, hp⟩

/-- Profiles are listed in the order of their identifiers, each once. -/
theorem pairwise_profiles : (s.profiles project).Pairwise fun p q => p.id < q.id := by
  unfold profiles Index.values
  rw [List.pairwise_map]
  refine (s.population project).profiles.sorted.imp_of_mem fun {a b} ha hb hlt => ?_
  have hkey : ∀ e ∈ (s.population project).profiles.entries, e.2.id = e.1 := fun e he =>
    h.profile_id (Index.mem_entries.1 he)
  rw [hkey a ha, hkey b hb]
  exact hlt

/-- A query for all events of a profile gives its history. -/
theorem events_all (id : String) : s.events project (.all id) = s.history project id := by
  unfold events
  refine List.filter_eq_self.2 fun e he => ?_
  simp [EventQuery.accepts, EventQuery.all, h.event_profileId he]

end Filed

end Cohort.Store
