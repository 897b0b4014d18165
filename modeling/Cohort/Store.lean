import Cohort.Error
import Cohort.Profile
import Cohort.Timeframe
set_option autoImplicit false

/-!
# Stores

A store holds the profiles and events of projects. Profiles are listed by their identifiers, the
events of a profile in the order of their arrival.

## Main definitions

* `Cohort.Store` — the profiles and events of all projects.
* `Cohort.EventQuery` — which events of a profile are wanted.
* `Cohort.Source` — where a service reads profiles and events from; not every read succeeds.
-/

namespace Cohort

/-- The profiles and events of a project. -/
structure Population where
  /-- The profiles under their identifiers. -/
  profiles : Index String Profile
  /-- The events under the identifiers of their profiles. -/
  events : Index String (List Event)
deriving DecidableEq

/-- Nobody. -/
def Population.empty : Population := ⟨.empty, .empty⟩

/-- The profiles and events of all projects. -/
structure Store where
  /-- The profiles and events under the names of the projects. -/
  projects : Index String Population
deriving DecidableEq

/-- Which events of a profile are wanted. -/
structure EventQuery where
  /-- The profile. -/
  profileId : String
  /-- The name of the events; without one all are wanted. -/
  eventName : Option String
  /-- When the events were done; without a window it does not matter. -/
  window : Option Window
deriving DecidableEq

namespace EventQuery

/-- All events of a profile. -/
def all (profileId : String) : EventQuery :=
  ⟨profileId, none, none⟩

/-- Whether an event is wanted. -/
def accepts (q : EventQuery) (e : Event) : Bool :=
  e.profileId = q.profileId && q.eventName.all (e.name = ·) &&
    q.window.all (·.contains e.timestamp)

end EventQuery

namespace Store

/-- The store without projects. -/
def empty : Store := ⟨.empty⟩

/-- The profiles and events of a project. -/
def population (s : Store) (project : String) : Population :=
  (s.projects.get? project).getD .empty

/-- The store with the population of a project changed. -/
def change (s : Store) (project : String) (edit : Population → Population) : Store :=
  ⟨s.projects.insert project (edit (s.population project))⟩

/-- The store with a profile, instead of any with its identifier. -/
def upsertProfile (s : Store) (project : String) (profile : Profile) : Store :=
  s.change project fun p => { p with profiles := p.profiles.insert profile.id profile }

/-- The events of a profile. -/
def history (s : Store) (project profileId : String) : List Event :=
  ((s.population project).events.get? profileId).getD []

/-- The store with an event at the end of the history of its profile. -/
def appendEvent (s : Store) (project : String) (event : Event) : Store :=
  let history := s.history project event.profileId ++ [event]
  s.change project fun p => { p with events := p.events.insert event.profileId history }

/-- The profile with an identifier. -/
def profile? (s : Store) (project profileId : String) : Option Profile :=
  (s.population project).profiles.get? profileId

/-- The profiles of a project. -/
def profiles (s : Store) (project : String) : List Profile :=
  (s.population project).profiles.values

/-- The events that are wanted, in the order of their arrival. -/
def events (s : Store) (project : String) (q : EventQuery) : List Event :=
  (s.history project q.profileId).filter q.accepts

/-- The number of profiles of a project. -/
def profileCount (s : Store) (project : String) : Nat :=
  (s.population project).profiles.size

/-- The number of events of a project. -/
def eventCount (s : Store) (project : String) : Nat :=
  (s.population project).events.values.foldl (fun count events => count + events.length) 0

end Store

/-- Where a service reads profiles and events from. -/
structure Source where
  /-- The profile of a project with an identifier. -/
  profile? : String → String → Result (Option Profile)
  /-- The profiles of a project. -/
  profiles : String → Result (List Profile)
  /-- The events of a project that are wanted. -/
  events : String → EventQuery → Result (List Event)

/-- A store as a source, from which every read succeeds. -/
def Store.source (s : Store) : Source where
  profile? project profileId := .ok (s.profile? project profileId)
  profiles project := .ok (s.profiles project)
  events project q := .ok (s.events project q)

end Cohort
