import Cohort.Membership
import Cohort.Proofs.Registry.Deletion
import Cohort.Proofs.Subject.Meaning
set_option relaxedAutoImplicit false
set_option autoImplicit false

/-!
# Segments are conjunctions

The filters of a segment share what was found so far, and they are gone through only up to the first
that is not passed. Neither shows in the membership: whether a filter is passed has a meaning that
knows no look-ups, and a subject is a member if and only if it passes each filter in that sense. So
a segment depends on the set of its filters only, and it is the intersection of the segments with
one filter each.

## Main definitions

* `Cohort.Filter.Passes` — what it means that a subject passes a filter.
* `Cohort.Segment.withFilters` — a segment with other filters.

## Main results

* `Cohort.Filter.accepts_returns` — a filter decides whether it is passed, whatever was found
  before.
* `Cohort.Segment.membership_matched_iff` — the members are those who pass all filters.
* `Cohort.Segment.membership_conjunction` — the laws of conjunction, after any operations on a
  registry.
-/

namespace Cohort

/-! ### Filters -/

/-- A subject passes a filter on events if those that a scan of its own keeps suffice, and a filter
on an attribute if the meaning of the attribute passes all constraints. -/
inductive Filter.Passes (s : Subject) : Filter → Prop
  | event {name : String} {constraints : List Constraint} {threshold : Option Threshold}
      {timeframe : Timeframe}
      (suffice : acceptsEvents threshold (Scan.run s.limits (timeframe.window s.now) (some name)
        constraints s.events).events = true) :
      Passes s (.event name constraints threshold timeframe)
  | property {name : String} {constraints : List Constraint} {v : Json}
      (meaning : s.Denotes name v) (accepted : constraints.all (·.accepts (some v)) = true) :
      Passes s (.property name constraints)

section Passes

variable {s : Subject} {name : String} {constraints : List Constraint} {v : Json}

/-- Any meaning of the attribute decides whether a filter on it is passed, since there is one
only. -/
lemma Filter.passes_property_iff (hv : s.Denotes name v) :
    (Filter.property name constraints).Passes s ↔
      constraints.all (·.accepts (some v)) = true := by
  constructor
  · rintro (_ | ⟨hw, haccepted⟩)
    rwa [hv.unique hw]
  · exact .property hv

/-- A filter decides whether it is passed, whatever meanings were found before. -/
theorem Filter.accepts_returns (hs : s.snapshot.Ordered) (filter : Filter) :
    s.Returns (filter.accepts s) (fun accepted => accepted = true ↔ filter.Passes s) := by
  cases filter with
  | event name constraints threshold timeframe =>
    -- a scan leaves its note only, so what was recorded stays sound
    refine fun found hfound => ⟨?_, hfound⟩
    constructor
    · exact .event
    · rintro ⟨hsuffice⟩
      exact hsuffice
  | property name constraints =>
    refine (Subject.valueOf_finds hs name).bind fun v hv => ?_
    exact Subject.returns_pure (passes_property_iff hv).symm

end Passes

/-! ### Segments -/

namespace Segment

variable {s : Subject}

/-- Going through filters up to the first that is not passed decides whether all are passed.

**Proof sketch.** Induction on the filters. If the first is not passed, the others do not matter;
otherwise what it found is sound, so the others are decided as if they came first. -/
theorem acceptsAll_returns (hs : s.snapshot.Ordered) (filters : List Filter) :
    s.Returns (acceptsAll s filters)
      (fun accepted => accepted = true ↔ ∀ filter ∈ filters, filter.Passes s) := by
  unfold acceptsAll
  induction filters with
  | nil => exact Subject.returns_pure (by simp)
  | cons filter filters ih =>
    refine (filter.accepts_returns hs).bind fun accepted haccepted => ?_
    rw [List.forall_mem_cons]
    cases accepted with
    | true =>
      have hpasses : filter.Passes s := haccepted.1 rfl
      simpa only [hpasses, true_and] using ih
    | false =>
      have hfails : ¬ filter.Passes s := fun hpasses => Bool.false_ne_true (haccepted.2 hpasses)
      exact Subject.returns_pure (by simp [hfails])

/-- In the course of an evaluation too, a membership tells whether all filters are passed. -/
lemma membershipIn_returns (hs : s.snapshot.Ordered) (g : Segment) :
    s.Returns (g.membershipIn s)
      (fun m => m.matched = true ↔ ∀ filter ∈ g.filters, filter.Passes s) := by
  refine (acceptsAll_returns hs g.filters).bind fun matched hmatched => ?_
  exact fun found hfound => ⟨hmatched, hfound⟩

/-- The members of a segment are those who pass all its filters. -/
theorem membership_matched_iff (hs : s.snapshot.Ordered) (g : Segment) :
    (g.membership s).matched = true ↔ ∀ filter ∈ g.filters, filter.Passes s :=
  (membershipIn_returns hs g .none Subject.sound_none).1

/-- The segment with other filters. -/
def withFilters (g : Segment) (filters : List Filter) : Segment := { g with filters := filters }

/-- After any operations on a registry the members of a segment are those who pass each of its
filters. So filters in a row are a conjunction of what each part asks for; their order and their
repetitions do not matter, more of them admit no more members, and none of them admit everybody.

**Proof sketch.** All of this is read off `membership_matched_iff`, by which a membership depends on
the set of the filters. -/
theorem membership_conjunction (steps : List (String × Registry.Operation)) (project : String)
    (profile : Profile) (events : List Event) (limits : ScanLimits) (now : Instant) (g : Segment) :
    let s : Subject := ⟨(Registry.after steps).snapshot project, profile, events, limits, now⟩
    let matched (filters : List Filter) : Bool := ((g.withFilters filters).membership s).matched
    (∀ filters, matched filters = true ↔ ∀ filter ∈ filters, filter.Passes s) ∧
      (∀ first second, matched (first ++ second) = true ↔
        matched first = true ∧ matched second = true) ∧
      (∀ filters others, (∀ filter, filter ∈ filters ↔ filter ∈ others) →
        matched filters = matched others) ∧
      (∀ filters more, filters ⊆ more → matched more = true → matched filters = true) ∧
      matched [] = true := by
  intro s matched
  have hmatched : ∀ filters, matched filters = true ↔ ∀ filter ∈ filters, filter.Passes s :=
    fun filters => membership_matched_iff (Registry.ordered_after steps project) _
  refine ⟨hmatched, ?_, ?_, ?_, ?_⟩
  · intro first second
    rw [hmatched, hmatched, hmatched]
    exact List.forall_mem_append
  · intro filters others hsame
    refine Bool.eq_iff_iff.2 ?_
    rw [hmatched, hmatched]
    exact forall_congr' fun filter => imp_congr_left (hsame filter)
  · intro filters more hsubset
    rw [hmatched, hmatched]
    exact fun hmore filter hfilter => hmore filter (hsubset hfilter)
  · exact (hmatched []).2 fun _ hfilter => absurd hfilter List.not_mem_nil

/-! ### Customers of a shop -/

/-- Everybody who did something. -/
def did (name : String) : Filter := .event name [] none .allTime

/-- Everybody, once the label of the shop is looked up. -/
def labelled : Filter := .property "label" []

/-- Somebody who came to the shop and bought something there. -/
def customer : Subject where
  snapshot := (Registry.after Registry.shopSteps).snapshot "shop"
  profile := ⟨"ann", none, .empty, []⟩
  events := ["visit", "purchase"].map fun name => ⟨"ann", name, .empty, Registry.opening.time⟩
  limits := .unlimited
  now := ⟨60, 0, by decide, Instant.zero_lt_nanos⟩

/-- Looking the label up between two filters on events, or asking for the visit twice, changes
nothing; and whoever came and bought something also came. -/
theorem customer_conjunction :
    let matched (filters : List Filter) : Bool :=
      ((Registry.visitorsSegment.withFilters filters).membership customer).matched
    matched [did "visit", labelled, did "purchase", did "visit"] =
        matched [did "purchase", did "visit", labelled] ∧
      matched [did "visit", did "purchase"] = true ∧ matched [did "visit"] = true := by
  intro matched
  obtain ⟨-, -, hsame, hmore, -⟩ := membership_conjunction Registry.shopSteps "shop"
    customer.profile customer.events customer.limits customer.now Registry.visitorsSegment
  have hboth : matched [did "visit", did "purchase"] = true := by decide
  refine ⟨hsame _ _ fun filter => ?_, hboth, hmore _ _ ?_ hboth⟩
  · simp only [List.mem_cons, List.not_mem_nil, or_false]
    tauto
  · exact List.cons_subset_cons _ (List.nil_subset _)

end Segment

end Cohort
