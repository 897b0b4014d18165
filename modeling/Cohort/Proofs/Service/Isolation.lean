import Cohort.Proofs.Service.Stored
set_option relaxedAutoImplicit false
set_option autoImplicit false

/-!
# Sweeps over profiles that cannot all be read

What a sweep finds out about a profile depends on the profile and on its events: it is the
membership, or that the events cannot be read. So a profile that cannot be read is set apart and
disturbs no other, and whatever happens to the data of other profiles, a sweep that is not cancelled
lists a profile as before.

## Main definitions

* `Cohort.Service.readable` — the profiles of a population whose events can be read.
* `Cohort.Service.Accounts` — a sweep that accounts for each profile of a population.
* `Cohort.Sweep.ListsAlike` — two sweeps that list a profile in the same way.

## Main results

* `Cohort.Service.sweep_finds` — a sweep that is not cancelled tells what it finds out about each
  profile.
* `Cohort.Sweep.listsAlike_of_mem_iff` — how a profile is listed depends on what is found out about
  it.
* `Cohort.Service.sweep_isolates` — a sweep accounts for each profile and isolates it from others.
-/

namespace Cohort

namespace Sweep

/-- Two sweeps list a profile in the same way: as a member, as degraded and as failed, or not. -/
structure ListsAlike (v w : Sweep) (id : String) : Prop where
  /-- It is a member for both or for none. -/
  members : id ∈ v.members ↔ id ∈ w.members
  /-- It is degraded for both or for none. -/
  degraded : id ∈ v.degraded ↔ id ∈ w.degraded
  /-- It failed for both or for none. -/
  failed : id ∈ v.failed ↔ id ∈ w.failed

end Sweep

namespace Service

variable (s : Service) (project : String)

/-- The profiles of a population whose events can be read. -/
def readable (population : List Profile) : List Profile :=
  population.filter fun p => (s.source.events project (.all p.id)).toOption.isSome

/-- A sweep accounts for a population if it puts each profile either among those that were decided
or among those that failed, and lists members and degraded profiles among the former. -/
structure Accounts (segment : Segment) (population : List Profile) (w : Sweep) : Prop where
  /-- It goes through to the end. -/
  cancelled : w.cancelled = false
  /-- It counts the profiles whose events can be read. -/
  evaluated : w.evaluated = (s.readable project population).length
  /-- It fails for the other profiles, in the order of the population. -/
  failed : w.failed = (population.filter fun p =>
    (s.source.events project (.all p.id)).toOption.isNone).map Profile.id
  /-- Together these are as many as there are profiles. -/
  total : w.evaluated + w.failed.length = population.length
  /-- No profile is in both parts. -/
  apart : ∀ id ∈ w.failed, id ∉ (s.readable project population).map Profile.id
  /-- Members were decided, and are listed in the order of the population. -/
  members : w.members.Sublist ((s.readable project population).map Profile.id)
  /-- Degraded profiles were decided, and are listed in the order of the population. -/
  degraded : w.degraded.Sublist ((s.readable project population).map Profile.id)
  /-- Members are those of which that was found out. -/
  mem_members : ∀ id, id ∈ w.members ↔
    ∃ p ∈ population, p.id = id ∧ (s.finding project segment p).any Membership.matched
  /-- Degraded profiles are those of which that was found out. -/
  mem_degraded : ∀ id, id ∈ w.degraded ↔
    ∃ p ∈ population, p.id = id ∧ (s.finding project segment p).any Membership.degraded

variable {s project} {segment : Segment} {population : List Profile}

/-- Something is found out about the profiles whose events can be read. -/
lemma isSome_finding (segment : Segment) (p : Profile) :
    (s.finding project segment p).isSome =
      (s.source.events project (.all p.id)).toOption.isSome := by
  rw [finding, Option.isSome_map]

/-- A sweep that is not cancelled asks for all events of each profile of a population, and tells
what it finds out about each. -/
theorem sweep_finds {segmentId : Uuid}
    (hsegment : s.registry.segment project segmentId = .ok segment)
    (hpopulation : s.source.profiles project = .ok population) :
    (s.sweep project segmentId false).Gives
      (.ofFindings project segment false (s.finding project segment) population)
      (population.map fun p => .all p.id) := by
  have hsweep := sweep_gives (c := false) hsegment hpopulation
  rwa [Sweep.Cancellation.visited_of_atEnd rfl] at hsweep

/-- Profiles that are listed for what was found out about them were decided. -/
lemma sublist_readable (asked : Membership → Bool) :
    ((population.filter fun p => (s.finding project segment p).any asked).map Profile.id).Sublist
      ((s.readable project population).map Profile.id) := by
  apply List.Sublist.map
  apply List.monotone_filter_right
  intro p hp
  rw [← isSome_finding segment]
  obtain ⟨m, hm, -⟩ := (Option.any_eq_true _ _).1 hp
  rw [hm]
  rfl

/-- The profiles that are asked for are listed under their identifiers. -/
lemma mem_map_id_filter {asked : Profile → Bool} {id : String} :
    id ∈ (population.filter asked).map Profile.id ↔
      ∃ p ∈ population, p.id = id ∧ asked p = true := by
  simp only [List.mem_map, List.mem_filter]
  refine exists_congr fun p => ?_
  rw [and_assoc, and_comm (a := asked p = true)]

/-- What a sweep collects accounts for the population.

**Proof sketch.** Something is found out about a profile if and only if its events are read. So
those that are found out about and those that are not are the two parts of the population. -/
theorem accounts_ofFindings (segment : Segment) (population : List Profile) :
    s.Accounts project segment population
      (.ofFindings project segment false (s.finding project segment) population) := by
  have hfound : ∀ p, (s.finding project segment p).isSome =
      (s.source.events project (.all p.id)).toOption.isSome := isSome_finding segment
  have hnone : ∀ p, (s.finding project segment p).isNone =
      (s.source.events project (.all p.id)).toOption.isNone := fun p => Option.isNone_map
  unfold Sweep.ofFindings
  constructor
  · rfl
  · show population.countP _ = (population.filter _).length
    simp only [hfound]
    rw [List.countP_eq_length_filter]
  · simp only [hnone]
  · show population.countP _ + ((population.filter _).map Profile.id).length = _
    rw [List.length_map, ← List.countP_eq_length_filter,
      List.length_eq_countP_add_countP (fun p => (s.finding project segment p).isSome)]
    congr 1
    exact List.countP_congr fun p _ => by simp
  · intro id hfailed hreadable
    simp only [List.mem_map, List.mem_filter, readable] at hfailed hreadable
    obtain ⟨p, ⟨-, hp⟩, rfl⟩ := hfailed
    obtain ⟨q, ⟨-, hq⟩, hid⟩ := hreadable
    rw [hid] at hq
    rw [hnone, Option.isNone_iff_eq_none] at hp
    rw [hp] at hq
    cases hq
  · exact sublist_readable Membership.matched
  · exact sublist_readable Membership.degraded
  · exact fun id => mem_map_id_filter
  · exact fun id => mem_map_id_filter

end Service

namespace Sweep

variable {found other : Profile → Option Membership} {profiles others : List Profile} {id : String}

/-- Whether a profile is listed depends only on the profiles with its identifier and on what is
found out about them. -/
lemma mem_map_filter_iff (hmem : ∀ p, p.id = id → (p ∈ profiles ↔ p ∈ others))
    (hfound : ∀ p, p.id = id → found p = other p) (asked : Option Membership → Bool) :
    id ∈ (profiles.filter fun p => asked (found p)).map Profile.id ↔
      id ∈ (others.filter fun p => asked (other p)).map Profile.id := by
  simp only [List.mem_map, List.mem_filter]
  refine exists_congr fun p => ?_
  constructor
  · rintro ⟨⟨hp, hasked⟩, hid⟩
    exact ⟨⟨(hmem p hid).1 hp, hfound p hid ▸ hasked⟩, hid⟩
  · rintro ⟨⟨hp, hasked⟩, hid⟩
    exact ⟨⟨(hmem p hid).2 hp, hfound p hid ▸ hasked⟩, hid⟩

/-- Sweeps that find out the same about a profile list it in the same way. -/
theorem listsAlike_of_mem_iff (hmem : ∀ p, p.id = id → (p ∈ profiles ↔ p ∈ others))
    (hfound : ∀ p, p.id = id → found p = other p) (project : String) (segment : Segment) :
    ListsAlike (ofFindings project segment false found profiles)
      (ofFindings project segment false other others) id := by
  constructor
  · exact mem_map_filter_iff hmem hfound (·.any Membership.matched)
  · exact mem_map_filter_iff hmem hfound (·.any Membership.degraded)
  · exact mem_map_filter_iff hmem hfound Option.isNone

end Sweep

namespace Service

/-! ### Isolation -/

/-- A sweep over a population that can be listed is answered, whichever events cannot be read. It
accounts for each profile: the failed ones are those whose events cannot be read, all others were
decided, and members and degraded profiles are among the latter.

If the profiles and events are replaced by others, the sweep is answered just so. It lists a profile
as before if the profile is the same and its events are, whatever became of the other profiles: they
may have changed, come or gone, and their events may be readable or not.

**Proof sketch.** What is found out about a profile depends on the profile and on the answer to the
query for its events. The sweep collects this profile by profile. -/
theorem sweep_isolates (s : Service) (project : String) (segmentId : Uuid) (segment : Segment)
    (population : List Profile)
    (hsegment : s.registry.segment project segmentId = .ok segment)
    (hpopulation : s.source.profiles project = .ok population) :
    ∃ w, (s.sweep project segmentId false).answer = (.ok w, population.map fun p => .all p.id) ∧
      s.Accounts project segment population w ∧
      ∀ (source : Source) (others : List Profile), source.profiles project = .ok others →
        ∃ v, ({ s with source := source }.sweep project segmentId false).answer =
            (.ok v, others.map fun p => .all p.id) ∧
          ∀ id, (∀ p, p.id = id → (p ∈ others ↔ p ∈ population)) →
            (source.events project (.all id)).toOption =
              (s.source.events project (.all id)).toOption →
            v.ListsAlike w id := by
  refine ⟨_, (sweep_finds hsegment hpopulation).answer, accounts_ofFindings segment population, ?_⟩
  intro source others hothers
  have hsweep := sweep_finds (s := { s with source := source }) hsegment hothers
  refine ⟨_, hsweep.answer, fun id hmem hevents => ?_⟩
  apply Sweep.listsAlike_of_mem_iff hmem
  intro p hp
  subst hp
  show Option.map _ _ = Option.map _ _
  rw [hevents]
  rfl

/-- The shop while the events of Ann cannot be read. -/
def annUnread : Source :=
  { shop.source with
    events := fun project q =>
      if q.profileId = "ann" then .error (.storage "timeout") else shop.source.events project q }

/-- Bob, who came twice, is a member of the regulars while the events of Ann cannot be read, and
hence also when they can. -/
theorem bob_isolated :
    let s : Service := ⟨{}, shop.registry, annUnread, shop.now⟩
    (s.sweep "shop" regulars.id false).answer =
        (.ok ⟨"shop", regulars.id, "regulars", 1, ["bob"], [], ["ann"], false⟩,
          [.all "ann", .all "bob"]) ∧
      ∃ v, ({ s with source := shop.source }.sweep "shop" regulars.id false).answer =
          (.ok v, [.all "ann", .all "bob"]) ∧ "bob" ∈ v.members := by
  intro s
  obtain ⟨w, hw, -, hothers⟩ := sweep_isolates s "shop" regulars.id regulars
    [⟨"ann", none, .empty, []⟩, ⟨"bob", none, .empty, []⟩] (by decide +kernel) rfl
  have hsweep : (s.sweep "shop" regulars.id false).answer =
      (.ok ⟨"shop", regulars.id, "regulars", 1, ["bob"], [], ["ann"], false⟩,
        [.all "ann", .all "bob"]) := by
    decide +kernel
  obtain rfl := Except.ok.inj (congrArg Prod.fst (hw.symm.trans hsweep))
  obtain ⟨v, hv, hlists⟩ := hothers shop.source _ rfl
  have hbob := (hlists "bob" (fun p _ => Iff.rfl) rfl).members
  exact ⟨hsweep, v, hv, hbob.2 (by simp)⟩

end Service

end Cohort
