import Cohort.Aggregate.Scan
set_option autoImplicit false

/-!
# Reduction of events

Counts and sums of nothing are zero; of nothing there is no mean, no extreme and no touch. A
property that is null or an empty text counts as missing.

## Main definitions

* `Cohort.Aggregate.reduce` — the value of events that count.
* `Cohort.Aggregate.compute` — the value of an aggregate over the events of a profile.
-/

namespace Cohort.Aggregate

/-- The value of a property, unless it is missing. -/
def presentValue? (property : Option String) (e : Event) : Option Json :=
  (property.bind e.property?).filter fun v => !Json.isAbsent (some v)

/-- The values of a property, in the order of the events. -/
def presentValues (property : Option String) (events : List Event) : List Json :=
  events.filterMap (presentValue? property)

/-- Events in the order of time; simultaneous ones stay in the order of their arrival. -/
def chronological (events : List Event) : List Event :=
  events.mergeSort fun a b => !b.timestamp.before a.timestamp

/-- The values of a property in the order of time. -/
def touches (property : Option String) (events : List Event) : List Json :=
  presentValues property (chronological events)

/-- Values with the texts that tell them apart. Values with one text count as one. -/
def keyed (vs : List Json) : List (String × Json) :=
  vs.map fun v => (v.distinctKey, v)

/-- The first of values that count as one, for each of them. -/
def distinct (vs : List Json) : List Json :=
  ((keyed vs).eraseDupsBy fun a b => a.1 == b.1).map (·.2)

/-- The numbers among the values of a property. -/
def numbers (property : Option String) (grouping : Grouping) (events : List Event) : List Float :=
  let vs := presentValues property events
  (match grouping with
    | .total => vs
    | .unique => distinct vs).filterMap Json.toNumber?

/-- What tells events apart that are counted once: the property, or the whole payload. -/
def countedValue (property : Option String) (e : Event) : Json :=
  match property with
  | some p => (e.property? p).getD .null
  | none => .object e.payload.entries

/-- The first element of the greatest weight. -/
def heaviest? {α : Type} (weight : α → Nat) : List α → Option α
  | [] => none
  | a :: as =>
    match heaviest? weight as with
    | none => some a
    | some b => if weight a < weight b then some b else some a

/-- The value that occurs most often; of several the one that occurred first. -/
def mostFrequent? (vs : List Json) : Option Json :=
  let keyed := keyed vs
  (heaviest? (fun a => keyed.countP (a.1 == ·.1)) keyed).map (·.2)

/-- The sum of numbers from left to right. -/
def total (xs : List Float) : Float :=
  xs.foldl (· + ·) 0.0

/-- The mean of numbers, if there are any. -/
def mean? (xs : List Float) : Option Float :=
  if xs.isEmpty then none else some (total xs / Float.ofNat xs.length)

/-- The least of numbers. -/
def least? : List Float → Option Float
  | [] => none
  | x :: xs => some (xs.foldl (fun m y => if Decimal.below y m then y else m) x)

/-- The greatest of numbers. -/
def greatest? : List Float → Option Float
  | [] => none
  | x :: xs => some (xs.foldl (fun m y => if Decimal.below m y then y else m) x)

/-- The value of events that count. -/
def reduce (operation : Operation) (property : Option String) (grouping : Grouping)
    (events : List Event) : Json :=
  match operation with
  | .count =>
    match grouping with
    | .total => .ofInt events.length
    | .unique => .ofInt (distinct (events.map (countedValue property))).length
  | .sum => .ofNumber (total (numbers property grouping events))
  | .countUnique => .ofInt (distinct (presentValues property events)).length
  | .mean => .ofOption .ofNumber (mean? (numbers property grouping events))
  | .min => .ofOption .ofNumber (least? (numbers property .total events))
  | .max => .ofOption .ofNumber (greatest? (numbers property .total events))
  | .firstTouch => (touches property events).head?.getD .null
  | .lastTouch => (touches property events).getLast?.getD .null
  | .top => (mostFrequent? (touches property events)).getD .null

/-- The value of an aggregate, and how it was found. -/
structure Outcome where
  /-- The value. -/
  value : Json
  /-- The number of events that the scan looked at. -/
  scanned : Nat
  /-- Whether the scan stopped early. -/
  degraded : Bool
deriving DecidableEq

/-- The scan of an aggregate at a present. -/
def scan (limits : ScanLimits) (now : Instant) (a : Aggregate) (events : List Event) : Scan :=
  Scan.run limits (a.timeframe.window now) a.eventName a.filters events

/-- The value of an aggregate over the events of a profile at a present. -/
def compute (limits : ScanLimits) (now : Instant) (a : Aggregate) (events : List Event) :
    Outcome :=
  let kept := a.scan limits now events
  ⟨reduce a.operation a.eventProperty a.grouping kept.events, kept.scanned, kept.degraded⟩

end Cohort.Aggregate
