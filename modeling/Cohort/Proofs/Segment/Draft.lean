import Mathlib.Data.List.Induction
import Mathlib.Data.List.TakeWhile
import Mathlib.Tactic.Lemma
import Cohort.Segment.Draft
set_option relaxedAutoImplicit false
set_option autoImplicit false

/-!
# What drafting leads to

A draft is made by one call after the other. A refinement goes back over filters on properties to
the last filter on events, so it says something about the last call that added one. Read the other
way round, each filter on events is described by the calls behind it up to the next one that adds
such a filter: their constraints in order, the last timeframe and the last threshold. Nothing else
leaves a trace in it.

## Main definitions

* `Cohort.Segment.Call` — the calls on a draft with their arguments.
* `Cohort.Segment.Spec.drafted` — the draft that calls lead to.
* `Cohort.Segment.Call.scope` — the calls that say something about a filter on events.
* `Cohort.Segment.filtersOf` — the filters that calls describe.

## Main results

* `Cohort.Segment.filtersOf_concat` — what one more call describes.
* `Cohort.Segment.filters_drafted` — a draft has the filters that its calls describe.
* `Cohort.Segment.drafted_shape` — which filters these are, one by one.
-/

namespace Cohort.Segment

/-! ### Calls -/

/-- The calls on a draft, with their arguments. -/
inductive Call where
  | describedAs (text : String)
  | did (event : String)
  | didAtLeast (event : String) (count : Float)
  | didNot (event : String)
  | within (timeframe : Timeframe.Spec)
  | whereEvent (constraint : Constraint.Spec)
  | withThreshold (threshold : Threshold.Spec)
  | hasProperty (property dataType operator : String) (values : List Json)

/-- The draft after a call. -/
def Spec.call (s : Spec) : Call → Spec
  | .describedAs text => s.describedAs text
  | .did event => s.did event
  | .didAtLeast event count => s.didAtLeast event count
  | .didNot event => s.didNot event
  | .within timeframe => s.within timeframe
  | .whereEvent constraint => s.whereEvent constraint
  | .withThreshold threshold => s.withThreshold threshold
  | .hasProperty property dataType operator values =>
    s.hasProperty property dataType operator values

/-- The draft that calls lead to, from one without filters. -/
def Spec.drafted (name : String) (calls : List Call) : Spec :=
  calls.foldl Spec.call (.named name)

/-- A draft without calls has its name only. -/
@[simp] lemma Spec.drafted_nil (name : String) : Spec.drafted name [] = .named name := rfl

/-- The last call is made on the draft of those before it. -/
@[simp] lemma Spec.drafted_concat (name : String) (calls : List Call) (call : Call) :
    Spec.drafted name (calls ++ [call]) = (Spec.drafted name calls).call call := by
  simp [drafted, List.foldl_append]

namespace Call

/-- The event of a filter on events that a call adds, and the threshold that it starts with. -/
def event? : Call → Option (String × Option Threshold.Spec)
  | .did event => some (event, none)
  | .didAtLeast event count => some (event, some (Spec.countThreshold "at_least" count))
  | .didNot event => some (event, some (Spec.countThreshold "at_most" 0.0))
  | _ => none

/-- Whether a call adds a filter on events. -/
def isEvent (call : Call) : Bool := call.event?.isSome

/-- Whether a call adds a filter. -/
def addsFilter : Call → Bool
  | .hasProperty _ _ _ _ => true
  | call => call.isEvent

/-- The constraint on a payload that a call asks for. -/
def constraint? : Call → Option Constraint.Spec
  | .whereEvent constraint => some constraint
  | _ => none

/-- The timeframe that a call asks for. -/
def timeframe? : Call → Option Timeframe.Spec
  | .within timeframe => some timeframe
  | _ => none

/-- The threshold that a call asks for. -/
def threshold? : Call → Option Threshold.Spec
  | .withThreshold threshold => some threshold
  | _ => none

/-- The description that a call gives. -/
def text? : Call → Option String
  | .describedAs text => some text
  | _ => none

/-- What a call changes in the last filter on events. -/
def change (call : Call) (filter : Filter.Spec) : Filter.Spec :=
  match call with
  | .within timeframe => { filter with timeframe := some timeframe }
  | .whereEvent constraint => { filter with constraints := filter.constraints ++ [constraint] }
  | .withThreshold threshold => { filter with threshold := some threshold }
  | _ => filter

/-- A call that adds a filter on events changes none. -/
lemma change_of_isEvent {call : Call} (h : call.isEvent = true) (filter : Filter.Spec) :
    call.change filter = filter := by
  cases call with
  | did | didAtLeast | didNot => rfl
  | _ => cases h

/-- The calls that say something about a filter on events: those behind it up to the next call that
adds one. -/
def scope (later : List Call) : List Call :=
  later.takeWhile fun call => !call.isEvent

/-- The filter on an event that some calls describe. -/
def described (event : String) (initial : Option Threshold.Spec) (scope : List Call) :
    Filter.Spec where
  filterType := "event"
  event := some event
  property := none
  constraints := scope.filterMap constraint?
  threshold := (scope.filterMap threshold?).getLast?.or initial
  timeframe := (scope.filterMap timeframe?).getLast?

/-- The filter that a call adds, with what the calls behind it say about it. -/
def filter? (call : Call) (later : List Call) : Option Filter.Spec :=
  match call with
  | .hasProperty property dataType operator values =>
    some (Spec.propertyFilter property dataType operator values)
  | call => call.event?.map fun event => described event.1 event.2 (scope later)

/-- A call adds a filter or not, whatever calls follow. -/
lemma isSome_filter? (call : Call) (later : List Call) :
    (call.filter? later).isSome = call.addsFilter := by
  cases call <;> rfl

/-- A call that adds a filter on events adds the one that the calls in its scope describe. -/
lemma filter?_of_event? {call : Call} {event : String} {initial : Option Threshold.Spec}
    (h : call.event? = some (event, initial)) (later : List Call) :
    call.filter? later = some (described event initial (scope later)) := by
  cases call with
  | did | didAtLeast | didNot =>
    cases h
    rfl
  | _ => cases h

end Call

/-- The filters that calls describe. -/
def filtersOf : List Call → List Filter.Spec
  | [] => []
  | call :: later => (call.filter? later).toList ++ filtersOf later

open Call Spec

/-! ### Refinements -/

section Refinements

variable {change : Filter.Spec → Filter.Spec} {filter : Filter.Spec} {filters : List Filter.Spec}

/-- Where no filter is on events nothing is refined. -/
lemma refineLast_eq_self (h : filters.any isEventFilter = false) :
    refineLast change filters = filters := by
  induction filters with
  | nil => rfl
  | cons filter filters ih =>
    rw [List.any_cons, Bool.or_eq_false_iff] at h
    rw [refineLast, h.1, ih h.2]
    rfl

/-- A filter on a property is passed over. -/
lemma refineLast_cons_of_property (h : isEventFilter filter = false) :
    refineLast change (filter :: filters) = filter :: refineLast change filters := by
  rw [refineLast, h]
  rfl

/-- So is a filter that another one on events comes after. -/
lemma refineLast_cons_of_any (h : filters.any isEventFilter = true) :
    refineLast change (filter :: filters) = filter :: refineLast change filters := by
  rw [refineLast, h]
  simp

/-- The last filter on events is changed. -/
lemma refineLast_cons_of_last (h : isEventFilter filter = true)
    (hlast : filters.any isEventFilter = false) :
    refineLast change (filter :: filters) = change filter :: filters := by
  rw [refineLast, h, hlast]
  rfl

/-- A change that changes nothing leaves all filters as they are. -/
lemma refineLast_of_forall (h : ∀ filter, change filter = filter) :
    refineLast change filters = filters := by
  induction filters with
  | nil => rfl
  | cons filter filters ih =>
    rw [refineLast, ih, h]
    split <;> rfl

end Refinements

/-- A call changes the last filter on events and adds a filter, each if it is one that does. -/
lemma filters_call (s : Spec) (call : Call) :
    (s.call call).filters = refineLast call.change s.filters ++ (call.filter? []).toList := by
  cases call with
  | within | whereEvent | withThreshold => exact (List.append_nil _).symm
  | describedAs text =>
    have hkept : refineLast (Call.describedAs text).change s.filters = s.filters :=
      refineLast_of_forall fun _ => rfl
    rw [hkept]
    exact (List.append_nil _).symm
  | did | didAtLeast | didNot | hasProperty =>
    exact congrArg (· ++ _) (refineLast_of_forall fun _ => rfl).symm

/-! ### Filters described by calls -/

variable {call : Call} {calls later : List Call}

/-- There is a filter on events if a call adds one. -/
lemma any_filtersOf (calls : List Call) :
    (filtersOf calls).any isEventFilter = calls.any isEvent := by
  induction calls with
  | nil => rfl
  | cons call later ih =>
    rw [filtersOf, List.any_append, ih, List.any_cons]
    cases call <;> rfl

/-- One more call that adds no filter on events changes the filter that the calls describe. -/
lemma described_concat (event : String) (initial : Option Threshold.Spec) (scope : List Call)
    (h : call.isEvent = false) :
    described event initial (scope ++ [call]) = call.change (described event initial scope) := by
  cases call with
  | did | didAtLeast | didNot => cases h
  | _ => simp [described, change, constraint?, threshold?, timeframe?, List.filterMap_append]

/-- One more call changes the filter on events that nothing but refinements come after. -/
lemma described_scope_concat (event : String) (initial : Option Threshold.Spec)
    (h : later.any isEvent = false) :
    described event initial (scope (later ++ [call])) =
      call.change (described event initial (scope later)) := by
  have hscope : ∀ c ∈ later, (!c.isEvent) = true := by simpa using h
  rw [scope, scope, List.takeWhile_append_of_pos hscope, List.takeWhile_eq_self_iff.2 hscope]
  cases hcall : call.isEvent with
  | true => simp [hcall, change_of_isEvent hcall]
  | false => simp [hcall, described_concat event initial later hcall]

/-- It says nothing about a filter on events that another one comes after.

**Proof sketch.** The scope stops at the other event before it comes to the new call. -/
lemma scope_concat_of_any (h : later.any isEvent = true) :
    scope (later ++ [call]) = scope later := by
  unfold scope
  rw [List.takeWhile_append, if_neg]
  intro hlength
  have hall := (List.takeWhile_prefix _).eq_of_length hlength
  obtain ⟨event, hmem, hevent⟩ := List.any_eq_true.1 h
  have hnone := List.takeWhile_eq_self_iff.1 hall event hmem
  rw [hevent] at hnone
  cases hnone

/-- One more call changes the filter that a call adds, if it is the last one on events.

**Proof sketch.** If there is a later call on events, the call has its scope already and a later
filter is changed. Otherwise its filter is the last one, and the new call belongs to its scope. -/
lemma refineLast_filter? (first : Call) :
    refineLast call.change ((first.filter? later).toList ++ filtersOf later) =
      (first.filter? (later ++ [call])).toList ++ refineLast call.change (filtersOf later) := by
  cases hevent : first.event? with
  | some event =>
    rw [filter?_of_event? hevent, filter?_of_event? hevent]
    cases hany : later.any isEvent with
    | true =>
      rw [scope_concat_of_any hany]
      exact refineLast_cons_of_any ((any_filtersOf later).trans hany)
    | false =>
      have hlast := (any_filtersOf later).trans hany
      rw [described_scope_concat _ _ hany, refineLast_eq_self hlast]
      exact refineLast_cons_of_last rfl hlast
  | none =>
    cases first with
    | did | didAtLeast | didNot => cases hevent
    | hasProperty => exact refineLast_cons_of_property rfl
    | _ => rfl

/-- One more call changes the last of the filters on events that calls describe, and adds a filter,
each if it is one that does.

**Proof sketch.** Induction on the calls. The new call is in the scope of the first one if that adds
a filter on events and no other call does; then that filter is the last one on events. -/
theorem filtersOf_concat (calls : List Call) (call : Call) :
    filtersOf (calls ++ [call]) =
      refineLast call.change (filtersOf calls) ++ (call.filter? []).toList := by
  induction calls with
  | nil => exact List.append_nil _
  | cons first later ih =>
    rw [List.cons_append, filtersOf, filtersOf, ih, refineLast_filter?, List.append_assoc]

/-- A draft has the filters that its calls describe. -/
theorem filters_drafted (name : String) (calls : List Call) :
    (drafted name calls).filters = filtersOf calls := by
  induction calls using List.reverseRecOn with
  | nil => rfl
  | append_singleton calls call ih => rw [drafted_concat, filters_call, ih, filtersOf_concat]

/-- Each call that adds a filter adds one, and the others add none. -/
lemma length_filtersOf (calls : List Call) :
    (filtersOf calls).length = calls.countP addsFilter := by
  induction calls with
  | nil => rfl
  | cons call later ih =>
    rw [filtersOf, List.length_append, ih, Option.length_toList, isSome_filter?, List.countP_cons,
      Nat.add_comm]

/-- The filters of the calls from one on come after as many as the calls before it add.

**Proof sketch.** Induction on the calls before it, each of which adds one filter or none. -/
lemma filtersOf_append (before later : List Call) :
    ∃ earlier, filtersOf (before ++ later) = earlier ++ filtersOf later ∧
      earlier.length = before.countP addsFilter := by
  induction before with
  | nil => exact ⟨[], rfl, rfl⟩
  | cons call before ih =>
    obtain ⟨earlier, hearlier, hlength⟩ := ih
    refine ⟨(call.filter? (before ++ later)).toList ++ earlier, ?_, ?_⟩
    · rw [List.cons_append, filtersOf, hearlier, List.append_assoc]
    · rw [List.length_append, hlength, Option.length_toList, isSome_filter?, List.countP_cons,
        Nat.add_comm]

/-- The filters that calls describe are those that they add.

**Proof sketch.** Induction on the calls, with those behind each one as its scope. -/
lemma mem_filtersOf {calls : List Call} {filter : Filter.Spec} (h : filter ∈ filtersOf calls) :
    ∃ before call later, calls = before ++ call :: later ∧ call.filter? later = some filter := by
  induction calls with
  | nil => cases h
  | cons call later ih =>
    rw [filtersOf, List.mem_append, Option.mem_toList] at h
    rcases h with h | h
    · exact ⟨[], call, later, rfl, h⟩
    · obtain ⟨before, other, rest, rfl, hfilter⟩ := ih h
      exact ⟨call :: before, other, rest, rfl, hfilter⟩

/-- The filter that a call adds stands behind those of the calls before it. -/
lemma getElem?_filtersOf {before : List Call} {filter : Filter.Spec}
    (h : call.filter? later = some filter) :
    (filtersOf (before ++ call :: later))[before.countP addsFilter]? = some filter := by
  obtain ⟨earlier, hfilters, hlength⟩ := filtersOf_append before (call :: later)
  rw [hfilters, ← hlength, List.getElem?_append_right (Nat.le_refl _), Nat.sub_self, filtersOf, h]
  rfl

/-- A call keeps the name of a draft, and its description unless it gives one. -/
lemma description_call (s : Spec) (call : Call) :
    (s.call call).name = s.name ∧ (s.call call).description = call.text?.or s.description := by
  cases call <;> exact ⟨rfl, rfl⟩

/-- A draft keeps its name, and the last description given to it.

**Proof sketch.** Induction on the calls from the last one, which may set the description. -/
lemma description_drafted (name : String) (calls : List Call) :
    (drafted name calls).name = name ∧
      (drafted name calls).description = (calls.filterMap text?).getLast? := by
  induction calls using List.reverseRecOn with
  | nil => exact ⟨rfl, rfl⟩
  | append_singleton calls call ih =>
    obtain ⟨hname, hdescription⟩ := description_call (drafted name calls) call
    have hlast : ([call].filterMap text?).getLast? = call.text? := by cases call <;> rfl
    rw [drafted_concat, hname, hdescription, ih.1, ih.2, List.filterMap_append,
      List.getLast?_append, hlast]
    exact ⟨rfl, rfl⟩

/-- A draft has one filter for every call that adds one, in the order of the calls, and besides them
its name and the last description. A filter on events has the constraints of the refinements behind
its call and before the next call that adds such a filter, in their order, and the timeframe and the
threshold of the last of them that gives one, or the threshold that it started with. Nothing else is
in it: refinements before its call leave no trace, and neither do filters on properties, which stay
as they were added.

**Proof sketch.** The filters of a draft are those that its calls add, each with the scope behind it
(`filters_drafted`). Their number and the filter at a place follow from that list. -/
theorem drafted_shape (name : String) (calls : List Call) :
    let draft := Spec.drafted name calls
    draft.name = name ∧ draft.description = (calls.filterMap text?).getLast? ∧
      draft.filters.length = calls.countP addsFilter ∧
      (∀ before call later event initial, calls = before ++ call :: later →
        call.event? = some (event, initial) →
          let scope := later.takeWhile fun call => !call.isEvent
          draft.filters[before.countP addsFilter]? =
            some ⟨"event", some event, none, scope.filterMap constraint?,
              (scope.filterMap threshold?).getLast?.or initial,
              (scope.filterMap timeframe?).getLast?⟩) ∧
      ∀ before later property dataType operator values,
        calls = before ++ .hasProperty property dataType operator values :: later →
          draft.filters[before.countP addsFilter]? =
            some ⟨"property", none, some property, [⟨property, dataType, operator, values⟩], none,
              none⟩ := by
  intro draft
  have hfilters : draft.filters = filtersOf calls := filters_drafted name calls
  refine ⟨(description_drafted name calls).1, (description_drafted name calls).2, ?_, ?_, ?_⟩
  · rw [hfilters, length_filtersOf]
  · intro before call later event initial hcalls hevent
    rw [hfilters, hcalls]
    exact getElem?_filtersOf (filter?_of_event? hevent later)
  · intro before later property dataType operator values hcalls
    rw [hfilters, hcalls]
    exact getElem?_filtersOf rfl

/-! ### A draft of engaged customers -/

/-- The payload says that it was done on a phone. -/
def onPhone : Constraint.Spec := ⟨"platform", "string", "is", [.string "ios"]⟩

/-- The last week. -/
def lastWeek : Timeframe.Spec := .relative 7 "days"

/-- Customers who logged in on a phone, pay for their plan and got nothing refunded in the last
week. Nothing is said by the week in front, and the phone is meant for the event before the plan. -/
def engaged : List Call :=
  [.within lastWeek, .did "login", .hasProperty "plan" "string" "is_not" [.string "free"],
    .whereEvent onPhone, .didNot "refund", .within .allTime, .within lastWeek]

/-- Each refinement of engaged customers is found in the filter that it is meant for, and the one in
front of all events in none. -/
theorem engaged_shape :
    engaged = [.within lastWeek] ++ .did "login" :: engaged.drop 2 ∧
      (Call.did "login").event? = some ("login", none) ∧
      (Spec.drafted "engaged" engaged).filters[0]? =
        some ⟨"event", some "login", none, [onPhone], none, none⟩ ∧
      (Spec.drafted "engaged" engaged).filters[1]? =
        some ⟨"property", none, some "plan", [⟨"plan", "string", "is_not", [.string "free"]⟩], none,
          none⟩ ∧
      (Spec.drafted "engaged" engaged).filters[2]? =
        some ⟨"event", some "refund", none, [], some (Spec.countThreshold "at_most" 0.0),
          some lastWeek⟩ := by
  obtain ⟨-, -, -, hevents, hproperties⟩ := drafted_shape "engaged" engaged
  have hlogin := hevents [.within lastWeek] (.did "login") (engaged.drop 2) "login" none rfl rfl
  have hplan := hproperties (engaged.take 2) (engaged.drop 3) "plan" "string" "is_not" _ rfl
  have hrefund := hevents (engaged.take 4) (.didNot "refund") (engaged.drop 5) "refund" _ rfl rfl
  exact ⟨rfl, rfl, hlogin, hplan, hrefund⟩

end Cohort.Segment
