import Cohort.Service.Basic
set_option autoImplicit false

/-!
# Sweeps

A sweep decides the membership of every profile of a project. A profile whose events cannot be read
is listed as such and does not disturb the others. A sweep can be cancelled while it runs: it then
skips the profiles that it has not begun with, and tells what it found out about the others.

## Main definitions

* `Cohort.Sweep` — the outcome of a sweep.
* `Cohort.Sweep.Verdict` — what a sweep finds out about a profile.
* `Cohort.Sweep.Cancellation` — when a sweep is cancelled.
* `Cohort.Service.sweep` — the sweep of a segment.
-/

namespace Cohort

/-- The outcome of a sweep. -/
structure Sweep where
  /-- The project. -/
  projectId : String
  /-- The segment. -/
  segmentId : Uuid
  /-- The name of the segment. -/
  segmentName : String
  /-- The number of profiles that were decided. -/
  evaluated : Nat
  /-- The members. -/
  members : List String
  /-- The profiles that were decided by a scan that stopped early. -/
  degraded : List String
  /-- The profiles whose events could not be read. -/
  failed : List String
  /-- Whether the sweep was cancelled. -/
  cancelled : Bool
deriving DecidableEq

namespace Sweep

/-- What a sweep finds out about a profile. -/
inductive Verdict where
  /-- Nothing, since the sweep was cancelled before it began with the profile. -/
  | skipped
  /-- Its events cannot be read. -/
  | failed
  /-- Its membership was decided. -/
  | evaluated (membership : Membership)
deriving DecidableEq

/-- The membership, if it was decided. -/
def Verdict.membership? : Verdict → Option Membership
  | evaluated m => some m
  | _ => none

/-- When a sweep is cancelled, as the checks for it tell: there is one before each profile and one
at the end. The profiles are taken up in no fixed order, so those that are skipped may be any. -/
structure Cancellation where
  /-- Whether the sweep is cancelled before the profile at a place of the population. -/
  before : Nat → Bool
  /-- Whether it is cancelled at the end. -/
  atEnd : Bool
  /-- A sweep that is cancelled stays so. -/
  atEnd_of_before : ∀ place, before place = true → atEnd = true

/-- The cancellation of a sweep that is cancelled beforehand, or never. -/
def Cancellation.constantly (cancelled : Bool) : Cancellation :=
  ⟨fun _ => cancelled, cancelled, fun _ h => h⟩

/-- Whether a sweep is cancelled beforehand says how it is cancelled. -/
instance : Coe Bool Cancellation := ⟨.constantly⟩

/-- The profiles of verdicts with a property. -/
def profilesWhere (verdicts : List (String × Verdict)) (p : Verdict → Bool) : List String :=
  (verdicts.filter fun v => p v.2).map Prod.fst

/-- The outcome of a sweep from its verdicts about profiles. -/
def ofVerdicts (project : String) (segment : Segment) (cancelled : Bool)
    (verdicts : List (String × Verdict)) : Sweep where
  projectId := project
  segmentId := segment.id
  segmentName := segment.name
  evaluated := verdicts.countP (·.2.membership?.isSome)
  members := profilesWhere verdicts (·.membership?.any Membership.matched)
  degraded := profilesWhere verdicts (·.membership?.any Membership.degraded)
  failed := profilesWhere verdicts (· = .failed)
  cancelled := cancelled || verdicts.any (·.2 = .skipped)

end Sweep

namespace Service

/-- What a sweep finds out about a profile, where it may be cancelled by then. -/
def verdict (s : Service) (project : String) (snapshot : Snapshot) (segment : Segment)
    (cancelled : Bool) (profile : Profile) : Request (String × Sweep.Verdict) := do
  if cancelled then
    return (profile.id, .skipped)
  else
    try
      let events ← s.events project (.all profile.id)
      return (profile.id, .evaluated (segment.membership (s.subject snapshot profile events)))
    catch _ => return (profile.id, .failed)

/-- The sweep of a segment. -/
def sweep (s : Service) (project : String) (segmentId : Uuid) (cancellation : Sweep.Cancellation) :
    Request Sweep := do
  let segment ← .of (s.registry.segment project segmentId)
  let profiles ← .of (s.source.profiles project)
  let snapshot := s.registry.snapshot project
  let verdicts ← profiles.zipIdx.mapM fun (profile, place) =>
    s.verdict project snapshot segment (cancellation.before place) profile
  return .ofVerdicts project segment cancellation.atEnd verdicts

end Service

end Cohort
