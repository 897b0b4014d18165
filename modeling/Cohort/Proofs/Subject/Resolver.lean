import Mathlib.Data.Finset.Basic
import Cohort.Membership
import Cohort.Proofs.Subject.Session
set_option relaxedAutoImplicit false
set_option autoImplicit false

/-!
# Resolvers

A resolver serves the calls of one request. It keeps what was found, and it marks the computed
fields that are being worked out: a look-up that comes back to a marked field has no value. Here the
marks are set and removed step by step. On an ordered snapshot no look-up comes back, so a resolver
answers and finds what look-ups without marks do, and every call removes the marks that it sets.

## Main definitions

* `Cohort.Resolver` — what was found and which fields are marked.
* `Cohort.Subject.valueWithin` — a look-up that marks the fields that it works out.
* `Cohort.Subject.Call` — what one can ask for during a request.
* `Cohort.Subject.call`, `Cohort.Subject.callWithin` — the reply to a call, without and with marks.

## Main results

* `Cohort.Subject.valueWithin_related` — marks make no difference to a look-up and are removed.
* `Cohort.Subject.mapM_callWithin` — neither do they to the calls of a request.
-/

namespace Cohort

/-- What is kept during a request. -/
structure Resolver where
  /-- What was found. -/
  found : Findings
  /-- The computed fields that are being worked out. -/
  marked : Finset String

namespace Resolver

/-- The resolver of a request that starts. -/
def new : Resolver := ⟨.none, ∅⟩

/-- The resolver with one more field marked. -/
def mark (r : Resolver) (name : String) : Resolver :=
  { r with marked := insert name r.marked }

/-- The resolver with a field that was worked out: its value is recorded, and its mark removed. -/
def settle (r : Resolver) (name : String) (value : Json) : Resolver :=
  ⟨r.found.record name value, r.marked.erase name⟩

end Resolver

/-- A computation with a resolver. It fails if look-ups are nested too deeply. -/
abbrev Resolution := OptionT (StateM Resolver)

/-- A computation that leaves the marks alone. -/
def Resolution.onFindings {α : Type} (x : Lookup α) : Resolution α := fun r =>
  (some (x r.found).1, { r with found := (x r.found).2 })

namespace Subject

variable {s : Subject} {name : String}

/-- The value of a computed field whose formula looks attributes up in a scope. -/
def workOutMarked (s : Subject) (f : ComputedField) (scope : String → Resolution Json) :
    Resolution Json :=
  match f.computation with
  | .aggregate a => Resolution.onFindings (s.aggregateValue a)
  | .formula _ e => Formula.Value.toJson <$> e.evaluate scope

/-- The recorded value of a computed field, null for a marked one, or the value that is worked out
now. The field is marked before that and no longer once its value is recorded. -/
def fieldMarked (s : Subject) (f : ComputedField) (scope : String → Resolution Json) :
    Resolution Json := do
  match (← get).found.values.get? f.field with
  | some value => return value
  | none =>
    if f.field ∈ (← get).marked then return .null
    else
      modify (·.mark f.field)
      let value ← s.workOutMarked f scope
      modify (·.settle f.field value)
      return value

/-- The value of an attribute, where look-ups may be nested up to a depth. -/
def valueWithin (s : Subject) : Nat → String → Resolution Json
  | 0, _ => failure
  | depth + 1, name =>
    match s.snapshot.computed.get? name with
    | none => return (s.profile.attribute? name).getD .null
    | some f => s.fieldMarked f (s.valueWithin depth)

/-! ### Calls -/

/-- What one can ask for during a request. -/
inductive Call where
  /-- A value, a computed field or all computed fields. -/
  | ask (request : Request)
  /-- Whether the subject is a member of a segment. -/
  | membership (g : Segment)

/-- The reply to a call. -/
inductive Reply where
  | answer (a : Answer)
  | membership (m : Membership)

/-- The reply to a call in the course of a request. -/
def call (s : Subject) : Call → Lookup Reply
  | .ask request => do return .answer (← s.answer request)
  | .membership g => do return .membership (← g.membershipIn s)

/-- The value of a computed field on request, with marks. -/
def computedValueWithin (s : Subject) (depth : Nat) (name : String) :
    Resolution (Result ComputedValue) :=
  match s.snapshot.computed.get? name with
  | none => return .error (.notFound .computedField name)
  | some f => do
    let value ← s.valueWithin depth name
    return .ok ⟨f.field, f.dataType, value, (← get).found.degraded⟩

/-- The values of all computed fields, with marks. -/
def computedValuesWithin (s : Subject) (depth : Nat) : Resolution (Index String Json) := do
  let entries ← s.snapshot.evaluationOrder.mapM fun name =>
    return (name, ← s.valueWithin depth name)
  return .ofList entries

/-- Whether the subject passes a filter, with marks. A scan of the events looks no attribute up. -/
def acceptsWithin (s : Subject) (depth : Nat) : Filter → Resolution Bool
  | .event name constraints threshold timeframe =>
    Resolution.onFindings (Filter.accepts s (.event name constraints threshold timeframe))
  | .property name constraints => do
    let value ← s.valueWithin depth name
    return constraints.all (·.accepts (some value))

/-- Whether the subject is a member of a segment, with marks. -/
def membershipWithin (s : Subject) (depth : Nat) (g : Segment) : Resolution Membership := do
  let matched ← g.filters.allM (s.acceptsWithin depth)
  return ⟨matched, (← get).found.degraded⟩

/-- The reply to a call, with marks. -/
def callWithin (s : Subject) (depth : Nat) : Call → Resolution Reply
  | .ask (.value name) => do return .answer (.value (← s.valueWithin depth name))
  | .ask (.field name) => do return .answer (.field (← s.computedValueWithin depth name))
  | .ask .allFields => do return .answer (.values (← s.computedValuesWithin depth))
  | .membership g => do return .membership (← s.membershipWithin depth g)

/-! ### Marks make no difference -/

section Marks

variable {α β : Type} {marked : Finset String}

/-- A computation goes on from the result of its first step and what that leaves behind. -/
lemma bind_of_resolved {x : Resolution α} {g : α → Resolution β} {r r' : Resolver} {a : α}
    (h : x r = (some a, r')) : (x >>= g) r = g a r' := by
  change (x >>= g).run r = _
  rw [OptionT.run_bind]
  change Option.elim (x r).1 (pure none) (fun a => (g a).run) (x r).2 = _
  rw [h]
  rfl

/-- Computations of a resolver with certain marks, compared with computations without: they have the
same result, find the same, and leave the marks as they are. -/
def unmarked (marked : Finset String) : Formula.Simulation Resolution Lookup where
  Related x y := ∀ found, x ⟨found, marked⟩ = (some (y found).1, ⟨(y found).2, marked⟩)
  related_pure _ _ := rfl
  related_bind {_ _ _ y _ _} hx hg found := by
    rw [bind_of_resolved (hx found)]
    exact hg _ _

/-- A computation on the findings does not touch the marks. -/
lemma onFindings_related (x : Lookup α) :
    (unmarked marked).Related (Resolution.onFindings x) x := fun _ => rfl

variable {f : ComputedField} {scope : String → Resolution Json} {scope' : String → Lookup Json}

/-- To work a field out makes no difference to the marks if the look-ups of what it reads make
none. -/
lemma workOutMarked_related
    (h : ∀ read ∈ f.references, (unmarked marked).Related (scope read) (scope' read)) :
    (unmarked marked).Related (s.workOutMarked f scope) (s.workOut f scope') := by
  unfold workOutMarked workOut
  cases hcomputed : f.computation with
  | aggregate a => exact onFindings_related _
  | formula source e =>
    rw [ComputedField.references_of_formula hcomputed] at h
    exact (unmarked marked).related_bind_pure (Formula.Expr.evaluate_related _ h) _

/-- A field that is not marked is marked only while it is worked out.

**Proof sketch.** The field is marked before it is worked out and loses its mark behind that, which
leaves the marks as they were since it was not among them. -/
lemma fieldMarked_related (hfree : f.field ∉ marked) (h : ∀ read ∈ f.references,
      (unmarked (insert f.field marked)).Related (scope read) (scope' read)) :
    (unmarked marked).Related (s.fieldMarked f scope) (s.fieldValue f.field f scope') := by
  intro found
  have hread : (get : Resolution Resolver) ⟨found, marked⟩ =
      (some ⟨found, marked⟩, ⟨found, marked⟩) := rfl
  unfold fieldMarked
  rw [bind_of_resolved hread]
  cases hrecorded : found.values.get? f.field with
  | some v =>
    rw [fieldValue_of_eq_some hrecorded]
    rfl
  | none =>
    rw [fieldValue_of_eq_none hrecorded]
    have hmark : (modify (·.mark f.field) : Resolution Unit) ⟨found, marked⟩ =
        (some (), ⟨found, insert f.field marked⟩) := rfl
    simp only
    rw [bind_of_resolved hread, if_neg hfree, bind_of_resolved hmark,
      bind_of_resolved (workOutMarked_related h found)]
    change (some _, Resolver.settle _ _ _) = _
    rw [Resolver.settle, Finset.erase_insert hfree]

end Marks

variable {marked : Finset String}

/-- A depth of nested look-ups that suffices for an attribute of an ordered snapshot: what a field
reads is looked up one deeper, and comes before it. -/
def DeepEnough (s : Subject) (depth : Nat) (name : String) : Prop :=
  0 < depth ∧ (s.snapshot.computed.contains name → s.snapshot.rank name + 1 < depth)

/-- A depth that suffices for a field suffices one deeper for what it reads. -/
lemma DeepEnough.read (hs : s.snapshot.Ordered) {depth : Nat} (h : s.DeepEnough (depth + 1) name)
    {f : ComputedField} (hf : s.snapshot.computed.get? name = some f) {read : String}
    (hread : read ∈ f.references) : s.DeepEnough depth read := by
  have hdepth := h.2 (Index.contains_iff.2 ⟨f, hf⟩)
  refine ⟨by omega, fun hfield => ?_⟩
  have hlt := hs.rank_lt hf read hread hfield
  omega

/-- A depth beyond the number of computed fields suffices for all attributes. -/
lemma deepEnough_of_keys_lt (hs : s.snapshot.Ordered) {depth : Nat}
    (h : s.snapshot.computed.keys.length < depth) (name : String) : s.DeepEnough depth name := by
  refine ⟨by omega, fun hfield => ?_⟩
  have hmem : name ∈ s.snapshot.evaluationOrder :=
    hs.perm.mem_iff.2 (Index.mem_keys.2 (Index.contains_iff.1 hfield))
  have hrank := List.idxOf_lt_length_of_mem hmem
  rw [hs.perm.length_eq] at hrank
  exact Nat.lt_of_le_of_lt hrank h

/-- Marks make no difference to a look-up of an attribute that comes before all marked fields, and
the look-up leaves the marks as they are.

**Proof sketch.** Induction along the order of the fields. A field that is read comes before all
marked ones and before the field that reads it, so it is free. -/
theorem valueWithin_related (hs : s.snapshot.Ordered) {depth : Nat}
    (hdepth : s.DeepEnough depth name) (h : s.Leads marked.toList name) :
    (unmarked marked).Related (s.valueWithin depth name) (s.valueOf name) := by
  induction name using hs.induction generalizing depth marked with
  | raw name hf =>
    obtain ⟨depth, rfl⟩ := Nat.exists_eq_add_one.2 hdepth.1
    rw [valueWithin, hf, valueOf_raw hf]
    exact (unmarked marked).related_pure _
  | field name f hf ih =>
    obtain ⟨depth, rfl⟩ := Nat.exists_eq_add_one.2 hdepth.1
    have hname : f.field = name := hs.named name f hf
    subst hname
    rw [valueWithin, hf, valueOf_field hs hf]
    refine fieldMarked_related (fun hin => h.notMem hf (Finset.mem_toList.2 hin)) ?_
    intro read hread
    refine ih read hread (hdepth.read hs hf hread) fun hfield p hp => ?_
    exact h.cons hs hf hread hfield p (by simpa using hp)

section Calls

variable {depth : Nat}

/-- The marks of a resolver between calls make no difference to a look-up. -/
lemma valueWithin_related_empty (hs : s.snapshot.Ordered)
    (hdepth : s.snapshot.computed.keys.length < depth) (name : String) :
    (unmarked ∅).Related (s.valueWithin depth name) (s.valueOf name) :=
  valueWithin_related hs (deepEnough_of_keys_lt hs hdepth name) (by simp [Leads])

/-- To ask whether a scan stopped early does not touch the marks. -/
lemma degraded_related {marked : Finset String} :
    (unmarked marked).Related (do return (← get).found.degraded : Resolution Bool)
      (do return (← get).degraded : Lookup Bool) := fun _ => rfl

/-- The marks of a resolver between calls make no difference to a computed field on request. -/
lemma computedValueWithin_related (hs : s.snapshot.Ordered)
    (hdepth : s.snapshot.computed.keys.length < depth) (name : String) :
    (unmarked ∅).Related (s.computedValueWithin depth name) (s.computedValue name) := by
  unfold computedValueWithin computedValue
  cases s.snapshot.computed.get? name with
  | none => exact (unmarked ∅).related_pure _
  | some f =>
    exact (unmarked ∅).related_bind₂ (valueWithin_related_empty hs hdepth name) degraded_related
      fun v degraded => (.ok ⟨f.field, f.dataType, v, degraded⟩ : Result ComputedValue)

/-- They make no difference to all computed fields on request. -/
lemma computedValuesWithin_related (hs : s.snapshot.Ordered)
    (hdepth : s.snapshot.computed.keys.length < depth) :
    (unmarked ∅).Related (s.computedValuesWithin depth) s.computedValues := by
  refine (unmarked ∅).related_bind_pure ((unmarked ∅).related_mapM fun name => ?_) Index.ofList
  exact (unmarked ∅).related_bind_pure (valueWithin_related_empty hs hdepth name) _

/-- They make no difference to whether a filter is passed. -/
lemma acceptsWithin_related (hs : s.snapshot.Ordered)
    (hdepth : s.snapshot.computed.keys.length < depth) (filter : Filter) :
    (unmarked ∅).Related (s.acceptsWithin depth filter) (filter.accepts s) := by
  cases filter with
  | event name constraints threshold timeframe => exact onFindings_related _
  | property name constraints =>
    exact (unmarked ∅).related_bind_pure (valueWithin_related_empty hs hdepth name) _

/-- They make no difference to a membership. -/
lemma membershipWithin_related (hs : s.snapshot.Ordered)
    (hdepth : s.snapshot.computed.keys.length < depth) (g : Segment) :
    (unmarked ∅).Related (s.membershipWithin depth g) (g.membershipIn s) :=
  (unmarked ∅).related_bind₂ ((unmarked ∅).related_allM (acceptsWithin_related hs hdepth))
    degraded_related Membership.mk

/-- Marks make no difference to the reply to a call, and a call removes those that it sets. -/
theorem callWithin_related (hs : s.snapshot.Ordered)
    (hdepth : s.snapshot.computed.keys.length < depth) (call : Call) :
    (unmarked ∅).Related (s.callWithin depth call) (s.call call) := by
  cases call with
  | ask request =>
    cases request with
    | value name =>
      exact (unmarked ∅).related_bind_pure (valueWithin_related_empty hs hdepth name) _
    | field name =>
      exact (unmarked ∅).related_bind_pure (computedValueWithin_related hs hdepth name) _
    | allFields => exact (unmarked ∅).related_bind_pure (computedValuesWithin_related hs hdepth) _
  | membership g => exact (unmarked ∅).related_bind_pure (membershipWithin_related hs hdepth g) _

/-- With as much depth as computed fields need, all calls of a request have a reply. The replies and
what was found in the end are those without marks, and no field is left marked. -/
theorem mapM_callWithin (hs : s.snapshot.Ordered)
    (hdepth : s.snapshot.computed.keys.length < depth) (calls : List Call) :
    calls.mapM (s.callWithin depth) .new =
      (some (calls.mapM s.call .none).1, ⟨(calls.mapM s.call .none).2, ∅⟩) :=
  (unmarked ∅).related_mapM (callWithin_related hs hdepth) .none

end Calls

end Subject

end Cohort
