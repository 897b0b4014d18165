import Cohort.Segment.Basic
set_option autoImplicit false

/-!
# Drafting segments

A segment is drafted filter by filter. A refinement changes the filter on events that was added
last; before there is one, it changes nothing.

## Main definitions

* `Cohort.Segment.Spec.named` — the draft without filters.
* `Cohort.Segment.Spec.did`, `Cohort.Segment.Spec.didAtLeast`, `Cohort.Segment.Spec.didNot`,
  `Cohort.Segment.Spec.hasProperty` — one more filter.
* `Cohort.Segment.Spec.within`, `Cohort.Segment.Spec.whereEvent`,
  `Cohort.Segment.Spec.withThreshold` — refinements.
-/

namespace Cohort.Segment.Spec

/-- The draft of a segment without filters. -/
def named (name : String) : Spec :=
  ⟨name, none, []⟩

/-- The draft with a description. -/
def describedAs (s : Spec) (text : String) : Spec :=
  { s with description := some text }

/-- A filter on an event, with a threshold or without. -/
def eventFilter (event : String) (threshold : Option Threshold.Spec) : Filter.Spec :=
  ⟨"event", some event, none, [], threshold, none⟩

/-- A bound on the number of events. -/
def countThreshold (operator : String) (count : Float) : Threshold.Spec :=
  ⟨"count_events", none, operator, count, none⟩

/-- A filter on a property with one constraint. -/
def propertyFilter (property dataType operator : String) (values : List Json) : Filter.Spec :=
  ⟨"property", none, some property, [⟨property, dataType, operator, values⟩], none, none⟩

/-- The draft with one more filter. -/
def withFilter (s : Spec) (filter : Filter.Spec) : Spec :=
  { s with filters := s.filters ++ [filter] }

/-- Members did the event. -/
def did (s : Spec) (event : String) : Spec :=
  s.withFilter (eventFilter event none)

/-- Members did the event at least so often. -/
def didAtLeast (s : Spec) (event : String) (count : Float) : Spec :=
  s.withFilter (eventFilter event (some (countThreshold "at_least" count)))

/-- Members did not do the event. -/
def didNot (s : Spec) (event : String) : Spec :=
  s.withFilter (eventFilter event (some (countThreshold "at_most" 0.0)))

/-- Members have a property that passes a constraint. -/
def hasProperty (s : Spec) (property dataType operator : String) (values : List Json) : Spec :=
  s.withFilter (propertyFilter property dataType operator values)

/-- Whether a filter tests events. -/
def isEventFilter (filter : Filter.Spec) : Bool :=
  filter.filterType == "event"

/-- Filters with the last one on events changed. -/
def refineLast (change : Filter.Spec → Filter.Spec) : List Filter.Spec → List Filter.Spec
  | [] => []
  | filter :: rest =>
    if isEventFilter filter && !rest.any isEventFilter then change filter :: rest
    else filter :: refineLast change rest

/-- The draft with its last filter on events changed. -/
def refine (s : Spec) (change : Filter.Spec → Filter.Spec) : Spec :=
  { s with filters := refineLast change s.filters }

/-- The event was done in a timeframe. -/
def within (s : Spec) (timeframe : Timeframe.Spec) : Spec :=
  s.refine fun filter => { filter with timeframe := some timeframe }

/-- The payload of the event passes one more constraint. -/
def whereEvent (s : Spec) (constraint : Constraint.Spec) : Spec :=
  s.refine fun filter => { filter with constraints := filter.constraints ++ [constraint] }

/-- A metric of the events reaches a threshold. -/
def withThreshold (s : Spec) (threshold : Threshold.Spec) : Spec :=
  s.refine fun filter => { filter with threshold := some threshold }

end Cohort.Segment.Spec
