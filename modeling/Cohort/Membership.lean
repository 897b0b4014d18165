import Cohort.Subject
set_option autoImplicit false

/-!
# Membership

A profile is a member of a segment if it passes all filters of the segment. The filters are gone
through in order up to the first that is not passed.

## Main definitions

* `Cohort.Filter.accepts` — whether a subject passes a filter.
* `Cohort.Segment.membership` — whether a subject is a member of a segment.
-/

namespace Cohort

/-- Whether a profile is a member of a segment. -/
structure Membership where
  /-- Whether it is. -/
  matched : Bool
  /-- Whether a scan behind the answer stopped early. -/
  degraded : Bool
deriving DecidableEq

namespace Filter

/-- Whether the events that a scan kept suffice: there is one, or the metric meets the threshold. -/
def acceptsEvents (threshold : Option Threshold) (events : List Event) : Bool :=
  match threshold with
  | none => !events.isEmpty
  | some t => t.isMetBy (Aggregate.reduce t.operation t.property .total events).toNumber?

/-- Whether a subject passes a filter. -/
def accepts (s : Subject) : Filter → Lookup Bool
  | .event name constraints threshold timeframe => do
    let kept := Scan.run s.limits (timeframe.window s.now) (some name) constraints s.events
    modify (·.note kept.degraded)
    return acceptsEvents threshold kept.events
  | .property name constraints => do
    let value ← s.valueOf name
    return constraints.all (·.accepts (some value))

end Filter

namespace Segment

/-- Whether a subject passes filters up to the first that it does not. -/
def acceptsAll (s : Subject) (filters : List Filter) : Lookup Bool :=
  filters.allM (Filter.accepts s)

/-- Whether a subject is a member of a segment, in the course of an evaluation. -/
def membershipIn (g : Segment) (s : Subject) : Lookup Membership := do
  let matched ← acceptsAll s g.filters
  return ⟨matched, (← get).degraded⟩

/-- Whether a subject is a member of a segment. -/
def membership (g : Segment) (s : Subject) : Membership :=
  (g.membershipIn s Findings.none).1

end Segment

end Cohort
