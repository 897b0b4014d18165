import Mathlib.Data.List.Perm.Basic
import Mathlib.Tactic.Lemma
import Cohort.Proofs.Store
set_option relaxedAutoImplicit false
set_option autoImplicit false

/-!
# The log behind a store

A store files what is brought in: profiles under their identifiers, events under those of their
profiles, and both under their projects. What can be read from it is what a plain log of everything
that was brought in would tell. The events are those of the log, in its order; of a profile the
last version counts; and what was brought in for other projects or other profiles has no influence,
wherever it stands in the log.

## Main definitions

* `Cohort.Store.upserted`, `Cohort.Store.appended` — what the log holds of a project.
* `Cohort.Store.latest?` — the last version of a profile in the log.
* `Cohort.EventQuery.Asks` — which events a query is about.
* `Cohort.Population.take` — what a deposit does to the population of its project.

## Main results

* `Cohort.Store.history_after` — the history of a profile is its part of the log.
* `Cohort.Store.profile?_after` — a profile is found in its last version.
* `Cohort.Store.perm_flatten_after` — all histories of a project together are its events.
* `Cohort.Store.population_after` — a population is made of the deposits for its project.
* `Cohort.Store.reads_log` — everything that is read is read off the log.
-/

namespace Cohort

namespace EventQuery

/-- A query asks for an event of its profile that has the name, if one is given, and that was done
in the window, if one is given: at its start or later, and before its end. -/
structure Asks (q : EventQuery) (e : Event) : Prop where
  /-- The event belongs to the profile. -/
  profileId : e.profileId = q.profileId
  /-- The event has the name. -/
  name : ∀ name, q.eventName = some name → e.name = name
  /-- The event was done in the window. -/
  window : ∀ w, q.window = some w →
    e.timestamp.before w.start = false ∧ e.timestamp.before w.stop = true

/-- Exactly the events that a query asks for are accepted. -/
lemma accepts_iff {q : EventQuery} {e : Event} : q.accepts e = true ↔ q.Asks e := by
  have hname : q.eventName.all (e.name = ·) = true ↔
      ∀ name, q.eventName = some name → e.name = name := by
    cases q.eventName <;> simp
  have hwindow : q.window.all (·.contains e.timestamp) = true ↔ ∀ w, q.window = some w →
      e.timestamp.before w.start = false ∧ e.timestamp.before w.stop = true := by
    cases q.window <;> simp [Window.contains]
  unfold accepts
  rw [Bool.and_eq_true, Bool.and_eq_true, decide_eq_true_eq, hname, hwindow]
  constructor
  · rintro ⟨⟨hprofile, hname⟩, hwindow⟩
    exact ⟨hprofile, hname, hwindow⟩
  · rintro ⟨hprofile, hname, hwindow⟩
    exact ⟨⟨hprofile, hname⟩, hwindow⟩

/-- Whether a query asks for an event can be decided. -/
instance (q : EventQuery) (e : Event) : Decidable (q.Asks e) :=
  decidable_of_iff _ accepts_iff

end EventQuery

/-! ### The log -/

namespace Store

/-- The profile that a deposit is about. -/
def Deposit.profileId : Deposit → String
  | .profile p => p.id
  | .event e => e.profileId

/-- The profile that is brought in. -/
def Deposit.profile? : Deposit → Option Profile
  | .profile p => some p
  | .event _ => none

/-- The event that is brought in. -/
def Deposit.event? : Deposit → Option Event
  | .profile _ => none
  | .event e => some e

/-- The deposits for a project, in the order in which they came. -/
def ofProject (deposits : List (String × Deposit)) (project : String) : List Deposit :=
  (deposits.filter (·.1 = project)).map Prod.snd

/-- The profiles that were brought in for a project, in the order in which they came. -/
def upserted (deposits : List (String × Deposit)) (project : String) : List Profile :=
  (ofProject deposits project).filterMap Deposit.profile?

/-- The events that were brought in for a project, in the order in which they came. -/
def appended (deposits : List (String × Deposit)) (project : String) : List Event :=
  (ofProject deposits project).filterMap Deposit.event?

/-- The last version of a profile that was brought in for a project. -/
def latest? (deposits : List (String × Deposit)) (project id : String) : Option Profile :=
  (upserted deposits project).reverse.find? (·.id = id)

/-- The deposits for one profile of a project. -/
def ofProfile (deposits : List (String × Deposit)) (project id : String) :
    List (String × Deposit) :=
  deposits.filter fun d => d.1 = project ∧ d.2.profileId = id

end Store

/-! ### Populations -/

namespace Population

open Store (Deposit)

/-- The population with a deposit. -/
def take (p : Population) : Deposit → Population
  | .profile q => { p with profiles := p.profiles.insert q.id q }
  | .event e =>
    { p with events := p.events.insert e.profileId ((p.events.get? e.profileId).getD [] ++ [e]) }

/-- The population that deposits make. -/
def ofDeposits (deposits : List Deposit) : Population :=
  deposits.foldl take .empty

/-- The last deposit is taken by the population of those before it. -/
lemma ofDeposits_concat (deposits : List Deposit) (d : Deposit) :
    ofDeposits (deposits ++ [d]) = (ofDeposits deposits).take d := by
  simp [ofDeposits]

variable (deposits : List Deposit) (id : String)

/-- A profile is found in the version that was brought in last.

**Proof sketch.** Induction on the deposits from the end: the last one is the first of the reversed
list. -/
lemma get?_profiles : (ofDeposits deposits).profiles.get? id =
    (deposits.filterMap Deposit.profile?).reverse.find? (·.id = id) := by
  induction deposits using List.reverseRecOn with
  | nil => rfl
  | append_singleton deposits d ih =>
    rw [ofDeposits_concat, List.filterMap_append, List.reverse_append]
    cases d with
    | profile p =>
      show ((ofDeposits deposits).profiles.insert p.id p).get? id = _
      rw [Index.get?_insert, ih]
      by_cases hid : p.id = id
      · simp [Deposit.profile?, hid]
      · simp [Deposit.profile?, hid]
    | event e => exact ih

/-- The history of a profile holds its events in the order in which they came.

**Proof sketch.** Induction on the deposits from the end. The last one is added to the end of the
history of its profile, if it is an event. -/
lemma getD_events : ((ofDeposits deposits).events.get? id).getD [] =
    (deposits.filterMap Deposit.event?).filter (·.profileId = id) := by
  induction deposits using List.reverseRecOn with
  | nil => rfl
  | append_singleton deposits d ih =>
    rw [ofDeposits_concat, List.filterMap_append, List.filter_append]
    cases d with
    | profile p =>
      show ((ofDeposits deposits).events.get? id).getD [] = _
      simp [Deposit.event?, ih]
    | event e =>
      show (((ofDeposits deposits).events.insert e.profileId _).get? id).getD [] = _
      rw [Index.get?_insert]
      by_cases hid : e.profileId = id
      · subst hid
        simp [Deposit.event?, ih]
      · simp [Deposit.event?, hid, ih]

/-- The histories with an event more are the histories, and that event.

**Proof sketch.** The histories are one of them and the others, before and after, and the new event
comes last in its own history. Between it and the end stand the others, which are moved. -/
lemma perm_flatten_insert (index : Index String (List Event)) (e : Event) :
    (index.insert id ((index.get? id).getD [] ++ [e])).values.flatten.Perm
      (index.values.flatten ++ [e]) := by
  have hold : index.values.flatten.Perm
      ((index.get? id).getD [] ++ (index.erase id).values.flatten) := by
    cases hget : index.get? id with
    | none =>
      have herase : index.erase id = index := by
        apply Index.ext_get?
        intro j
        by_cases hj : id = j
        · subst hj
          simp [hget]
        · simp [hj]
      simp [herase]
    | some history =>
      have hperm := Index.perm_values_insert_erase index id history
      rw [Index.insert_of_get? hget] at hperm
      exact hperm.flatten
  have hnew := (Index.perm_values_insert_erase index id ((index.get? id).getD [] ++ [e])).flatten
  refine hnew.trans ?_
  rw [List.flatten_cons, List.append_assoc]
  refine List.Perm.trans ?_ (hold.symm.append_right [e])
  rw [List.append_assoc]
  exact List.perm_append_comm.append_left _

/-- All histories together are the events that came.

**Proof sketch.** Induction on the deposits from the end. -/
lemma perm_flatten_events :
    (ofDeposits deposits).events.values.flatten.Perm (deposits.filterMap Deposit.event?) := by
  induction deposits using List.reverseRecOn with
  | nil => exact List.Perm.refl _
  | append_singleton deposits d ih =>
    rw [ofDeposits_concat, List.filterMap_append]
    cases d with
    | profile p =>
      show (ofDeposits deposits).events.values.flatten.Perm _
      have hnone : [Deposit.profile p].filterMap Deposit.event? = [] := rfl
      rwa [hnone, List.append_nil]
    | event e => exact (perm_flatten_insert e.profileId _ e).trans (ih.append_right [e])

end Population

namespace Store

/-! ### What is read -/

/-- A deposit changes the population of its project. -/
lemma population_deposit (s : Store) (project other : String) (d : Deposit) :
    (s.deposit project d).population other =
      if project = other then (s.population other).take d else s.population other := by
  cases d with
  | profile p =>
    rw [deposit, upsertProfile, population_change]
    split
    case isTrue hproject => subst hproject; rfl
    case isFalse => rfl
  | event e =>
    rw [deposit, appendEvent, population_change]
    split
    case isTrue hproject => subst hproject; rfl
    case isFalse => rfl

/-- The last deposit belongs to the log of its own project only. -/
lemma ofProject_concat (deposits : List (String × Deposit)) (d : String × Deposit)
    (project : String) : ofProject (deposits ++ [d]) project =
      if d.1 = project then ofProject deposits project ++ [d.2]
      else ofProject deposits project := by
  unfold ofProject
  rw [List.filter_append, List.map_append]
  by_cases hproject : d.1 = project
  · simp [hproject]
  · simp [hproject]

/-- The population of a project is made of the deposits for it. -/
theorem population_after (deposits : List (String × Deposit)) (project : String) :
    (after deposits).population project = .ofDeposits (ofProject deposits project) := by
  induction deposits using List.reverseRecOn with
  | nil => rfl
  | append_singleton deposits d ih =>
    rw [after_concat, population_deposit, ofProject_concat, ih]
    split
    case isTrue => exact (Population.ofDeposits_concat _ _).symm
    case isFalse => rfl

section Reads

variable (deposits : List (String × Deposit)) (project : String)

/-- The history of a profile is its part of the log. -/
theorem history_after (id : String) : (after deposits).history project id =
    (appended deposits project).filter (·.profileId = id) := by
  rw [history, population_after]
  exact Population.getD_events _ id

/-- A query gives the events of the log that it asks for. -/
theorem events_after (q : EventQuery) : (after deposits).events project q =
    (appended deposits project).filter fun e => q.Asks e := by
  rw [events, history_after, List.filter_filter]
  refine List.filter_congr fun e _ => ?_
  rw [Bool.eq_iff_iff, Bool.and_eq_true, decide_eq_true_eq, decide_eq_true_eq,
    EventQuery.accepts_iff]
  constructor
  · exact fun h => h.1
  · exact fun h => ⟨h, h.profileId⟩

/-- A profile is found in its last version. -/
theorem profile?_after (id : String) :
    (after deposits).profile? project id = latest? deposits project id := by
  rw [profile?, population_after]
  exact Population.get?_profiles _ id

/-- The number of events is that of all histories together. -/
lemma eventCount_eq (s : Store) :
    s.eventCount project = (s.population project).events.values.flatten.length := by
  have hfold : ∀ (histories : List (List Event)) (count : Nat),
      histories.foldl (fun count events => count + events.length) count =
        count + histories.flatten.length := by
    intro histories
    induction histories with
    | nil => simp
    | cons history histories ih =>
      intro count
      simp [ih, Nat.add_assoc]
  rw [eventCount, hfold, Nat.zero_add]

/-- As many events are counted as came for the project. -/
theorem eventCount_after :
    (after deposits).eventCount project = (appended deposits project).length := by
  rw [eventCount_eq, population_after]
  exact (Population.perm_flatten_events _).length_eq

/-- The listed profiles are the last versions. -/
lemma mem_profiles_after {p : Profile} : p ∈ (after deposits).profiles project ↔
    latest? deposits project p.id = some p := by
  rw [(filed_after deposits).mem_profiles, profile?_after]

/-- The number of profiles is that of the listed ones. -/
lemma profileCount_eq (s : Store) : s.profileCount project = (s.profiles project).length := by
  simp [profileCount, profiles, Index.size, Index.values]

end Reads

/-! ### What has no influence -/

section Influence

variable (deposits : List (String × Deposit)) (project id : String)

/-- What was brought in for other projects has no influence. -/
theorem population_ofProject : (after deposits).population project =
    (after (deposits.filter (·.1 = project))).population project := by
  have hown : ofProject (deposits.filter (·.1 = project)) project = ofProject deposits project := by
    simp [ofProject]
  rw [population_after, population_after, hown]

/-- The deposits for one profile are those of its project that are about it. -/
lemma ofProject_ofProfile : ofProject (ofProfile deposits project id) project =
    (ofProject deposits project).filter (·.profileId = id) := by
  unfold ofProject ofProfile
  rw [List.filter_filter, List.filter_map, List.filter_filter]
  congr 1
  refine List.filter_congr fun d _ => ?_
  by_cases hproject : d.1 = project
  · simp [hproject]
  · simp [hproject]

/-- What the deposits for one profile bring in is what all of them bring in for it.

**Proof sketch.** Induction on the deposits. -/
lemma filterMap_filter_profileId {α : Type} (f : Deposit → Option α) (key : α → String)
    (h : ∀ d a, f d = some a → key a = d.profileId) (ds : List Deposit) :
    (ds.filter (·.profileId = id)).filterMap f = (ds.filterMap f).filter (key · = id) := by
  induction ds with
  | nil => rfl
  | cons d ds ih =>
    rw [List.filterMap_cons, List.filter_cons]
    cases hf : f d with
    | none =>
      by_cases hid : d.profileId = id
      · simp [hid, hf, ih]
      · simp [hid, ih]
    | some a =>
      have hkey : key a = d.profileId := h d a hf
      by_cases hid : d.profileId = id
      · simp [hid, hf, hkey, ih]
      · simp [hid, hkey, ih]

/-- The deposits for a profile upsert this profile as often as all deposits do. -/
lemma upserted_ofProfile : upserted (ofProfile deposits project id) project =
    (upserted deposits project).filter (·.id = id) := by
  unfold upserted
  rw [ofProject_ofProfile]
  refine filterMap_filter_profileId id _ Profile.id (fun d p hp => ?_) _
  cases d with
  | profile q => exact congrArg Profile.id (Option.some.inj hp).symm
  | event e => cases hp

/-- The deposits for a profile append its events in the order in which all deposits do. -/
lemma appended_ofProfile : appended (ofProfile deposits project id) project =
    (appended deposits project).filter (·.profileId = id) := by
  unfold appended
  rw [ofProject_ofProfile]
  refine filterMap_filter_profileId id _ Event.profileId (fun d e he => ?_) _
  cases d with
  | profile q => cases he
  | event f => exact congrArg Event.profileId (Option.some.inj he).symm

/-- The deposits for one profile hold its last version and no other profile. -/
lemma latest?_ofProfile (other : String) : latest? (ofProfile deposits project id) project other =
    if other = id then latest? deposits project other else none := by
  unfold latest?
  rw [upserted_ofProfile, ← List.filter_reverse, List.find?_filter]
  split
  case isTrue hother =>
    subst hother
    simp
  case isFalse hother =>
    rw [List.find?_eq_none]
    intro p _ hp
    simp only [decide_eq_true_eq] at hp
    exact hother (hp.2.symm.trans hp.1)

/-- What was brought in for others has no influence on the events that are found. -/
theorem events_ofProfile (q : EventQuery) : (after deposits).events project q =
    (after (ofProfile deposits project q.profileId)).events project q := by
  rw [events_after, events_after, appended_ofProfile, List.filter_filter]
  refine List.filter_congr fun e _ => ?_
  rw [Bool.eq_iff_iff, Bool.and_eq_true, decide_eq_true_eq, decide_eq_true_eq]
  constructor
  · exact fun h => ⟨h, h.profileId⟩
  · exact fun h => h.1

/-- What was brought in for others has no influence on the version of a profile that is listed.

**Proof sketch.** Both lists ascend by the identifiers, so it is enough that they have the same
elements; and a profile is listed in its latest version (`mem_profiles_after`), which its own
deposits determine. -/
theorem profiles_ofProfile : ((after deposits).profiles project).filter (·.id = id) =
    (after (ofProfile deposits project id)).profiles project := by
  have hall : ((after deposits).profiles project).Pairwise fun p q => p.id < q.id :=
    (filed_after deposits).pairwise_profiles
  have hown : ((after (ofProfile deposits project id)).profiles project).Pairwise
      fun p q => p.id < q.id := (filed_after _).pairwise_profiles
  have hne : ∀ {p q : Profile}, p.id < q.id → p ≠ q := fun hlt heq =>
    Key.lt_irrefl _ (heq ▸ hlt)
  have hlisted := hall.filter (·.id = id)
  refine List.Perm.eq_of_pairwise ?_ hlisted hown ?_
  · intro p q _ _ hpq hqp
    exact absurd (Key.lt_trans hpq hqp) (Key.lt_irrefl _)
  · refine (List.perm_ext_iff_of_nodup (hlisted.imp hne) (hown.imp hne)).2 fun p => ?_
    rw [List.mem_filter, decide_eq_true_eq, mem_profiles_after, mem_profiles_after,
      latest?_ofProfile]
    by_cases hid : p.id = id
    · simp [hid]
    · simp [hid]

end Influence

/-! ### The store and its log -/

/-- Whatever was brought into a store, in whatever order and for whatever projects, the reads for a
project tell what the log tells:

* a query gives the events of the project that it asks for, in the order in which they came, each as
  often as it came;
* a profile is found, and listed, in the version that was brought in last; the listing has the
  profiles in ascending order of their identifiers, each once;
* the counts are those of the listed profiles and of all events of the project;
* what was brought in for other projects has no influence on anything that is read, and what was
  brought in for other profiles of the project has none on what is read for a profile: its events,
  the version that is found and the version that is listed.

**Proof sketch.** Induction on the deposits shows what the population of a project is made of. The
profiles are listed in order because an index lists its keys in order and everything is filed under
its own key. -/
theorem reads_log (deposits : List (String × Deposit)) (project : String) :
    let s := after deposits
    (∀ q, s.events project q = (appended deposits project).filter fun e => q.Asks e) ∧
      (∀ id, s.profile? project id = latest? deposits project id) ∧
      (s.profiles project).Pairwise (fun p q => p.id < q.id) ∧
      (∀ p, p ∈ s.profiles project ↔ latest? deposits project p.id = some p) ∧
      s.profileCount project = (s.profiles project).length ∧
      s.eventCount project = (appended deposits project).length ∧
      s.population project = (after (deposits.filter (·.1 = project))).population project ∧
      ∀ id, let own := after (ofProfile deposits project id)
        (∀ name window, s.events project ⟨id, name, window⟩ =
          own.events project ⟨id, name, window⟩) ∧
        s.profile? project id = own.profile? project id ∧
        (s.profiles project).filter (·.id = id) = own.profiles project := by
  intro s
  refine ⟨events_after deposits project, profile?_after deposits project,
    (filed_after deposits).pairwise_profiles, fun p => mem_profiles_after deposits project,
    profileCount_eq project s, eventCount_after deposits project,
    population_ofProject deposits project, fun id => ⟨fun name window => ?_, ?_, ?_⟩⟩
  · exact events_ofProfile deposits project ⟨id, name, window⟩
  · rw [profile?_after, profile?_after, latest?_ofProfile, if_pos rfl]
  · exact profiles_ofProfile deposits project id

end Store

end Cohort
