import Cohort.Proofs.Constraint.Acceptance
import Cohort.Proofs.Definition
import Cohort.Proofs.Segment.Draft
set_option relaxedAutoImplicit false
set_option autoImplicit false

/-!
# Which drafts are accepted

A draft is made of parts that could be submitted on their own: constraints, timeframes and
thresholds. If all of them are accepted and no name is blank, the draft is accepted too, with one
exception. A filter on a property names the property twice, for itself and in its constraint, and
only the first is read without the blanks around it. So the draft is refused if and only if there
are such blanks.

## Main definitions

* `Cohort.Segment.Call.Sound` — a call with a name that is not blank and parts that are accepted.

## Main results

* `Cohort.Filter.compile_event_eq_ok` — which filters on events are accepted.
* `Cohort.Filter.compile_property` — what becomes of a drafted filter on a property.
* `Cohort.Segment.compile_of_mem_filtersOf` — which of the filters that calls describe are accepted.
* `Cohort.Segment.compile_drafted` — which drafts are accepted.
-/

namespace Cohort

open Result

/-! ### Filters -/

/-- A name that is not blank is read without the blanks around it. -/
lemma trimmedName?_some {name : String} (h : Text.trim name ≠ "") :
    trimmedName? (some name) = some (Text.trim name) := by
  simp [trimmedName?, h]

namespace Filter

/-- A filter on an event is accepted if its name is not blank and its parts are accepted, and is
made of them.

**Proof sketch.** Both directions go through the checks in their order. A blank name is refused by
the first of them. -/
theorem compile_event_eq_ok {event : String} {constraints : List Constraint.Spec}
    {threshold : Option Threshold.Spec} {timeframe : Option Timeframe.Spec} {filter : Filter} :
    compile ⟨"event", some event, none, constraints, threshold, timeframe⟩ = .ok filter ↔
      Text.trim event ≠ "" ∧ ∃ cs t f, constraints.mapM Constraint.compile = .ok cs ∧
        threshold.mapM Threshold.compile = .ok t ∧ timeframe.mapM Timeframe.compile = .ok f ∧
        filter = .event (Text.trim event) cs t (f.getD .allTime) := by
  have htype : Text.trim "event" = "event" := by decide +kernel
  by_cases h : Text.trim event = ""
  · have hnone : trimmedName? (some event) = none := by simp [trimmedName?, h]
    simp only [compile, htype, compileEvent, hnone, bind_eq_ok]
    constructor
    · rintro ⟨_, -, hthrow⟩
      cases hthrow
    · rintro ⟨hne, -⟩
      exact absurd h hne
  · simp only [compile, htype, compileEvent, trimmedName?_some h, bind_eq_ok, pure_eq_ok]
    constructor
    · rintro ⟨cs, hcs, t, ht, f, hf, rfl⟩
      exact ⟨h, cs, t, f, hcs, ht, hf, rfl⟩
    · rintro ⟨-, cs, t, f, hcs, ht, hf, rfl⟩
      exact ⟨cs, hcs, t, ht, f, hf, rfl⟩

/-- A drafted filter on a property with a name that is not blank, and with a constraint that is
accepted, is refused only for blanks around the name: they are kept in the constraint.

**Proof sketch.** The constraint keeps the name with its blanks, and the filter is made for the name
without them. The two are compared, and a name that is not blank is not taken for a missing one. -/
theorem compile_property {property dataType operator : String} {values : List Json}
    {c : Constraint} (h : Text.trim property ≠ "")
    (hc : Constraint.compile ⟨property, dataType, operator, values⟩ = .ok c) :
    compile (Segment.Spec.propertyFilter property dataType operator values) =
      if Text.trim property = property then .ok (.property property [c])
      else .error (.validation (.fieldMismatch property (Text.trim property))) := by
  have htype : Text.trim "property" = "property" := by decide +kernel
  have hfield : c.field = property := (Constraint.compile_eq_ok.1 hc).2.2.2.2
  have hempty : property.isEmpty = false := by
    rw [← Bool.not_eq_true, String.isEmpty_iff]
    rintro rfl
    exact h (by decide)
  have hconstraints : [(⟨property, dataType, operator, values⟩ : Constraint.Spec)].mapM
      Constraint.compile = .ok [c] := by
    rw [List.mapM_cons, hc]
    rfl
  have hmismatch : (!c.field.isEmpty && decide (c.field ≠ Text.trim property)) =
      decide (property ≠ Text.trim property) := by
    rw [hfield, hempty]
    rfl
  have hcompile : compile (Segment.Spec.propertyFilter property dataType operator values) =
      compileProperty (Segment.Spec.propertyFilter property dataType operator values) [c] := by
    simp only [compile, Segment.Spec.propertyFilter, hconstraints, htype]
    rfl
  rw [hcompile]
  simp only [compileProperty, Segment.Spec.propertyFilter, trimmedName?_some h, List.find?_cons,
    hmismatch]
  by_cases htrim : Text.trim property = property
  · rw [if_pos htrim, htrim, decide_eq_false (not_not.2 rfl)]
    rfl
  · rw [if_neg htrim, decide_eq_true (Ne.symm htrim)]
    change Except.error (Error.validation (.fieldMismatch c.field (Text.trim property))) = _
    rw [hfield]

end Filter

/-! ### Calls -/

namespace Segment

open Spec Call

/-- A call with a name that is not blank and with parts that are accepted on their own. -/
def Call.Sound : Call → Prop
  | .describedAs _ => True
  | .did event | .didAtLeast event _ | .didNot event => Text.trim event ≠ ""
  | .within timeframe => ∃ t, Timeframe.compile timeframe = .ok t
  | .whereEvent constraint => ∃ c, Constraint.compile constraint = .ok c
  | .withThreshold threshold => ∃ t, Threshold.compile threshold = .ok t
  | .hasProperty property dataType operator values =>
    Text.trim property ≠ "" ∧
      ∃ c, Constraint.compile ⟨property, dataType, operator, values⟩ = .ok c

/-- A threshold for the number of events is accepted, unless it needs a second bound. -/
lemma compile_countThreshold {operator : String} {comparison : Comparison}
    (h : Threshold.readComparison operator = .ok comparison) (hone : comparison ≠ .between)
    (count : Float) :
    Threshold.compile (countThreshold operator count) =
      .ok ⟨.count, none, comparison, count, none⟩ := by
  have hmetric : Threshold.readMetric "count_events" = .ok .count := by decide +kernel
  simp only [Threshold.compile, countThreshold, hmetric, h]
  cases comparison with
  | between => exact absurd rfl hone
  | _ => rfl

/-- At least so many events. -/
lemma compile_atLeast (count : Float) :
    Threshold.compile (countThreshold "at_least" count) =
      .ok ⟨.count, none, .atLeast, count, none⟩ :=
  compile_countThreshold (by decide +kernel) (by decide) count

/-- At most so many events. -/
lemma compile_atMost (count : Float) :
    Threshold.compile (countThreshold "at_most" count) =
      .ok ⟨.count, none, .atMost, count, none⟩ :=
  compile_countThreshold (by decide +kernel) (by decide) count

section Parts

variable {call : Call} (h : call.Sound)
include h

/-- The event of a sound call is not blank, and the threshold that it starts with is accepted.

**Proof sketch.** By the call. The thresholds that calls start with are lower or upper bounds, which
are always accepted. -/
lemma Call.Sound.event {event : String} {initial : Option Threshold.Spec}
    (hevent : call.event? = some (event, initial)) :
    Text.trim event ≠ "" ∧ ∀ t ∈ initial, ∃ threshold, Threshold.compile t = .ok threshold := by
  cases call with
  | did =>
    cases hevent
    exact ⟨h, fun _ ht => by cases ht⟩
  | didAtLeast _ count =>
    cases hevent
    refine ⟨h, fun t ht => ?_⟩
    cases ht
    exact ⟨_, compile_atLeast count⟩
  | didNot =>
    cases hevent
    refine ⟨h, fun t ht => ?_⟩
    cases ht
    exact ⟨_, compile_atMost _⟩
  | _ => cases hevent

/-- A constraint that a sound call asks for is accepted. -/
lemma Call.Sound.constraint {spec : Constraint.Spec} (hspec : call.constraint? = some spec) :
    ∃ constraint, Constraint.compile spec = .ok constraint := by
  cases call with
  | whereEvent =>
    cases hspec
    exact h
  | _ => cases hspec

/-- So is a threshold. -/
lemma Call.Sound.threshold {spec : Threshold.Spec} (hspec : call.threshold? = some spec) :
    ∃ threshold, Threshold.compile spec = .ok threshold := by
  cases call with
  | withThreshold =>
    cases hspec
    exact h
  | _ => cases hspec

/-- So is a timeframe. -/
lemma Call.Sound.timeframe {spec : Timeframe.Spec} (hspec : call.timeframe? = some spec) :
    ∃ timeframe, Timeframe.compile spec = .ok timeframe := by
  cases call with
  | within =>
    cases hspec
    exact h
  | _ => cases hspec

end Parts

/-- The filter on an event that sound calls describe is accepted.

**Proof sketch.** Every constraint, the threshold and the timeframe of the description come from
calls in the scope, or from the start, and each of them is sound. -/
lemma exists_compile_described {event : String} {initial : Option Threshold.Spec}
    {scope : List Call} (hscope : ∀ call ∈ scope, call.Sound) (hevent : Text.trim event ≠ "")
    (hinitial : ∀ t ∈ initial, ∃ threshold, Threshold.compile t = .ok threshold) :
    ∃ filter, Filter.compile (described event initial scope) = .ok filter := by
  obtain ⟨cs, hcs⟩ : ∃ cs, (scope.filterMap constraint?).mapM Constraint.compile = .ok cs := by
    refine exists_mapM_eq_ok.2 fun c hc => ?_
    obtain ⟨call, hcall, hconstraint⟩ := List.mem_filterMap.1 hc
    exact (hscope call hcall).constraint hconstraint
  obtain ⟨t, ht⟩ : ∃ t, ((scope.filterMap threshold?).getLast?.or initial).mapM
      Threshold.compile = .ok t := by
    refine exists_option_mapM_eq_ok.2 fun t ht => ?_
    rcases Option.or_eq_some_iff.1 ht with ht | ⟨-, ht⟩
    · obtain ⟨call, hcall, hthreshold⟩ := List.mem_filterMap.1 (List.mem_of_getLast? ht)
      exact (hscope call hcall).threshold hthreshold
    · exact hinitial t ht
  obtain ⟨f, hf⟩ : ∃ f, ((scope.filterMap timeframe?).getLast?).mapM Timeframe.compile =
      .ok f := by
    refine exists_option_mapM_eq_ok.2 fun f hf => ?_
    obtain ⟨call, hcall, htimeframe⟩ := List.mem_filterMap.1 (List.mem_of_getLast? hf)
    exact (hscope call hcall).timeframe htimeframe
  exact ⟨_, Filter.compile_event_eq_ok.2 ⟨hevent, cs, t, f, hcs, ht, hf, rfl⟩⟩

/-! ### Drafts -/

variable {call : Call} {calls later : List Call} {filter : Filter.Spec}

/-- The filter that a sound call adds is accepted, but for blanks around the name of a property.

**Proof sketch.** A call on events adds the description of its scope, which is accepted. Of the
other calls only those on properties add a filter. -/
lemma compile_filter? (hcall : call.Sound) (hlater : ∀ call ∈ later, call.Sound)
    (h : call.filter? later = some filter) :
    (∃ accepted, Filter.compile filter = .ok accepted) ∨
      ∃ property dataType operator values, call = .hasProperty property dataType operator values ∧
        Text.trim property ≠ property ∧
        Filter.compile filter =
          .error (.validation (.fieldMismatch property (Text.trim property))) := by
  cases hevent : call.event? with
  | some added =>
    obtain ⟨event, initial⟩ := added
    rw [filter?_of_event? hevent, Option.some.injEq] at h
    obtain ⟨hname, hinitial⟩ := hcall.event hevent
    have hscope : ∀ call ∈ scope later, call.Sound := fun call hmem =>
      hlater call ((List.takeWhile_prefix _).subset hmem)
    rw [← h]
    exact .inl (exists_compile_described hscope hname hinitial)
  | none =>
    cases call with
    | hasProperty property dataType operator values =>
      obtain rfl := Option.some.inj h
      obtain ⟨hname, c, hc⟩ := hcall
      have hcompile := Filter.compile_property hname hc
      by_cases htrim : Text.trim property = property
      · rw [if_pos htrim] at hcompile
        exact .inl ⟨_, hcompile⟩
      · rw [if_neg htrim] at hcompile
        exact .inr ⟨property, dataType, operator, values, rfl, htrim, hcompile⟩
    | did | didAtLeast | didNot => cases hevent
    | _ => cases h

/-- The filters that sound calls describe are accepted one by one, but for those on properties with
blanks around their names.

**Proof sketch.** A filter was added by one of the calls, with the calls behind it as its scope, and
all of them are sound. -/
lemma compile_of_mem_filtersOf (hcalls : ∀ call ∈ calls, call.Sound)
    (h : filter ∈ filtersOf calls) :
    (∃ accepted, Filter.compile filter = .ok accepted) ∨
      ∃ property dataType operator values, .hasProperty property dataType operator values ∈ calls ∧
        Text.trim property ≠ property ∧
        Filter.compile filter =
          .error (.validation (.fieldMismatch property (Text.trim property))) := by
  obtain ⟨before, call, later, rfl, hfilter⟩ := mem_filtersOf h
  have hcall : call ∈ before ++ call :: later := List.mem_append_right _ List.mem_cons_self
  have hlater : ∀ c ∈ later, c.Sound := fun c hc =>
    hcalls c (List.mem_append_right _ (List.mem_cons_of_mem _ hc))
  rcases compile_filter? (hcalls call hcall) hlater hfilter with haccepted | hrefused
  · exact .inl haccepted
  · obtain ⟨property, dataType, operator, values, rfl, htrim, hcompile⟩ := hrefused
    exact .inr ⟨property, dataType, operator, values, hcall, htrim, hcompile⟩

/-- A draft with a name that is not blank is accepted if the filters are that its calls describe. -/
lemma compile_drafted_eq (id : Uuid) (now : Instant) {name : String} (hname : Text.trim name ≠ "")
    (calls : List Call) :
    Segment.compile id now (drafted name calls) =
      ((filtersOf calls).mapM Filter.compile).map fun filters =>
        ⟨id, Text.trim name, (calls.filterMap text?).getLast?, filters, now, now⟩ := by
  have hread : readName "name" name = .ok (Text.trim name) :=
    readName_eq_ok.2 ⟨rfl, Text.trim_trim name, hname⟩
  obtain ⟨hspec, hdescription⟩ := description_drafted name calls
  rw [Segment.compile, hspec, hdescription, filters_drafted, hread]
  cases (filtersOf calls).mapM Filter.compile with
  | error | ok => rfl

/-- A draft with a name that is not blank, made by sound calls, is accepted if and only if no
property is named with blanks around it. If it is refused, it is for such a property: the constraint
on it is said to be on another one.

**Proof sketch.** Its filters are those that the calls describe, and each of them is accepted or
refused alone. A filter on an event is made of parts of sound calls. One on a property has the name
once more in its constraint, where it is not trimmed before the two are compared. -/
theorem compile_drafted (id : Uuid) (now : Instant) {name : String} {calls : List Call}
    (hname : Text.trim name ≠ "") (hcalls : ∀ call ∈ calls, call.Sound) :
    ((∃ segment, Segment.compile id now (drafted name calls) = .ok segment) ↔
      ∀ property dataType operator values,
        .hasProperty property dataType operator values ∈ calls → Text.trim property = property) ∧
    ∀ e, Segment.compile id now (drafted name calls) = .error e →
      ∃ property dataType operator values,
        .hasProperty property dataType operator values ∈ calls ∧ Text.trim property ≠ property ∧
          e = .validation (.fieldMismatch property (Text.trim property)) := by
  rw [compile_drafted_eq id now hname]
  refine ⟨⟨?_, fun htrimmed => ?_⟩, fun e he => ?_⟩
  · rintro ⟨segment, hsegment⟩ property dataType operator values hmem
    obtain ⟨filters, hfilters, -⟩ := map_eq_ok.1 hsegment
    obtain ⟨hproperty, c, hc⟩ := hcalls _ hmem
    obtain ⟨before, later, rfl⟩ := List.append_of_mem hmem
    have hfilter : propertyFilter property dataType operator values ∈
        filtersOf (before ++ .hasProperty property dataType operator values :: later) :=
      List.mem_of_getElem? (getElem?_filtersOf rfl)
    obtain ⟨accepted, haccepted⟩ := exists_mapM_eq_ok.1 ⟨filters, hfilters⟩ _ hfilter
    by_contra htrim
    rw [Filter.compile_property hproperty hc, if_neg htrim] at haccepted
    cases haccepted
  · have hfilters : ∃ filters, (filtersOf calls).mapM Filter.compile = .ok filters := by
      refine exists_mapM_eq_ok.2 fun filter hfilter => ?_
      rcases compile_of_mem_filtersOf hcalls hfilter with haccepted | hrefused
      · exact haccepted
      · obtain ⟨property, dataType, operator, values, hmem, htrim, -⟩ := hrefused
        exact absurd (htrimmed property dataType operator values hmem) htrim
    obtain ⟨filters, hfilters⟩ := hfilters
    exact ⟨_, map_eq_ok.2 ⟨filters, hfilters, rfl⟩⟩
  · obtain ⟨filter, hfilter, herror⟩ := exists_of_mapM_eq_error (map_eq_error.1 he)
    rcases compile_of_mem_filtersOf hcalls hfilter with ⟨accepted, haccepted⟩ | hproperty
    · rw [haccepted] at herror
      cases herror
    · obtain ⟨property, dataType, operator, values, hmem, htrim, hcompile⟩ := hproperty
      rw [hcompile] at herror
      exact ⟨property, dataType, operator, values, hmem, htrim, (Except.error.inj herror).symm⟩

/-- Customers who logged in on a phone in the last week and pay for their plan. There are blanks
around the name of the event, and the timeframe in front is meant for none. -/
def subscribed : List Call :=
  [.within .allTime, .did " login ", .hasProperty "plan" "string" "is_not" [.string "free"],
    .whereEvent onPhone, .describedAs "on phones", .within lastWeek]

/-- Customers with a plan, in whose name there are blanks. -/
def planned : List Call := [.hasProperty " plan " "string" "is" [.string "pro"]]

/-- The draft of the first customers is accepted, with blanks around its name: no property is named
with blanks. -/
theorem subscribed_accepted :
    Text.trim " Subscribed " ≠ "" ∧ (∀ call ∈ subscribed, call.Sound) ∧
      ∃ segment, Segment.compile ⟨1, Uuid.one_lt⟩ ⟨0, 0, Instant.zero_range, Instant.zero_lt_nanos⟩
        (drafted " Subscribed " subscribed) = .ok segment := by
  have hname : Text.trim " Subscribed " ≠ "" := by decide +kernel
  have hevent : Text.trim " login " ≠ "" := by decide +kernel
  have hphone : ∃ c, Constraint.compile onPhone = .ok c :=
    ⟨⟨"platform", .string, .is, .text .is false ["ios"]⟩, by decide +kernel⟩
  have hplan : ∃ c, Constraint.compile ⟨"plan", "string", "is_not", [.string "free"]⟩ = .ok c :=
    ⟨⟨"plan", .string, .isNot, .text .is true ["free"]⟩, by decide +kernel⟩
  have hweek : ∃ t, Timeframe.compile lastWeek = .ok t := ⟨.relative 7 .days, by decide +kernel⟩
  have hcalls : ∀ call ∈ subscribed, call.Sound := by
    simp only [subscribed, List.forall_mem_cons]
    exact ⟨⟨.allTime, rfl⟩, hevent, ⟨by decide +kernel, hplan⟩, hphone, trivial, hweek,
      List.forall_mem_nil _⟩
  refine ⟨hname, hcalls, (compile_drafted _ _ hname hcalls).1.2 ?_⟩
  intro property dataType operator values hmem
  obtain ⟨rfl, -⟩ : property = "plan" ∧ _ := by simpa [subscribed] using hmem
  decide +kernel

/-- The draft of the others is not, though its only call is sound: its constraint has the blanks,
and is held against a name without them. -/
theorem planned_refused :
    Text.trim "Planned" ≠ "" ∧ (∀ call ∈ planned, call.Sound) ∧
      Segment.compile ⟨1, Uuid.one_lt⟩ ⟨0, 0, Instant.zero_range, Instant.zero_lt_nanos⟩
        (drafted "Planned" planned) = .error (.validation (.fieldMismatch " plan " "plan")) := by
  have hplan : ∃ c, Constraint.compile ⟨" plan ", "string", "is", [.string "pro"]⟩ = .ok c :=
    ⟨⟨" plan ", .string, .is, .text .is false ["pro"]⟩, by decide +kernel⟩
  refine ⟨by decide +kernel, ?_, by decide +kernel⟩
  rw [planned, List.forall_mem_singleton]
  exact ⟨by decide +kernel, hplan⟩

end Segment

end Cohort
