import Mathlib.Data.List.Induction
import Cohort.Proofs.Result
import Cohort.Registry.Basic
set_option relaxedAutoImplicit false
set_option autoImplicit false

/-!
# Operations on the registry

Everything that changes the registry is one of twelve operations on a project. This file says once
what they do: an operation is refused and leaves all snapshots as they are, or it edits the snapshot
of its project in the one way in which it can. What every edit keeps therefore holds in every
registry that operations lead to.

## Main definitions

* `Cohort.Registry.Operation` — the operations with their arguments.
* `Cohort.Registry.perform`, `Cohort.Registry.after` — an operation, and a sequence of them on a new
  registry.
* `Cohort.Registry.Edits` — the edit that an operation makes if it is accepted.
* `Cohort.Registry.Led` — what an operation with given edits can lead to.

## Main results

* `Cohort.Registry.perform_led` — every operation is refused or makes its edit.
* `Cohort.Registry.after_induction` — what edits keep holds after any operations.
-/

namespace Cohort.Registry

open Result

/-- The operations that change definitions, with their arguments. -/
inductive Operation where
  | createEventSchema (spec : EventSchema.Spec)
  | updateEventSchema (name : String) (spec : EventSchema.Spec)
  | deleteEventSchema (name : String)
  | createProfileProperty (spec : Field.Spec)
  | updateProfileProperty (name : String) (spec : Field.Spec)
  | deleteProfileProperty (name : String)
  | createComputedField (spec : ComputedField.Spec)
  | updateComputedField (name : String) (spec : ComputedField.Spec)
  | deleteComputedField (name : String)
  | createSegment (stamp : Stamp) (spec : Segment.Spec)
  | updateSegment (stamp : Stamp) (spec : Segment.Spec)
  | deleteSegment (id : Uuid)

/-- An outcome of which only the success counts. -/
def Outcome.discard {α : Type} (outcome : Outcome α) : Outcome Unit :=
  (outcome.1.map fun _ => (), outcome.2)

/-- An operation on a project. -/
def perform (r : Registry) (project : String) : Operation → Outcome Unit
  | .createEventSchema spec => (r.createEventSchema project spec).discard
  | .updateEventSchema name spec => (r.updateEventSchema project name spec).discard
  | .deleteEventSchema name => r.deleteEventSchema project name
  | .createProfileProperty spec => (r.createProfileProperty project spec).discard
  | .updateProfileProperty name spec => (r.updateProfileProperty project name spec).discard
  | .deleteProfileProperty name => r.deleteProfileProperty project name
  | .createComputedField spec => (r.createComputedField project spec).discard
  | .updateComputedField name spec => (r.updateComputedField project name spec).discard
  | .deleteComputedField name => r.deleteComputedField project name
  | .createSegment stamp spec => (r.createSegment project stamp spec).discard
  | .updateSegment stamp spec => (r.updateSegment project stamp spec).discard
  | .deleteSegment id => r.deleteSegment project id

/-- The registry after operations on projects, from a new one. -/
def after (steps : List (String × Operation)) : Registry :=
  steps.foldl (fun r step => (r.perform step.1 step.2).2) empty

/-- Without steps the registry is empty. -/
@[simp] lemma after_nil : after [] = empty := rfl

/-- The last step is performed on what those before it lead to. -/
@[simp] lemma after_concat (steps : List (String × Operation)) (step : String × Operation) :
    after (steps ++ [step]) = ((after steps).perform step.1 step.2).2 := by
  simp [after, List.foldl_append]

/-! ### Edits -/

/-- The edit of a snapshot that an operation makes if it is accepted, with the checks that it
passes. -/
inductive Edits (s : Snapshot) : Operation → Snapshot → Prop
  | createEventSchema {spec : EventSchema.Spec} {schema : EventSchema}
      (compiled : EventSchema.compile spec = .ok schema)
      (free : ¬ s.eventSchemas.contains schema.eventName) :
      Edits s (.createEventSchema spec)
        { s with eventSchemas := s.eventSchemas.insert schema.eventName schema }
  | updateEventSchema {name : String} {spec : EventSchema.Spec} {schema : EventSchema}
      (compiled : EventSchema.compile spec = .ok schema) (same : name = schema.eventName)
      (present : s.eventSchemas.contains name) :
      Edits s (.updateEventSchema name spec)
        { s with eventSchemas := s.eventSchemas.insert name schema }
  | deleteEventSchema {name : String} (present : s.eventSchemas.contains name) :
      Edits s (.deleteEventSchema name) { s with eventSchemas := s.eventSchemas.erase name }
  | createProfileProperty {spec : Field.Spec} {field : Field}
      (compiled : Field.compile spec = .ok field)
      (free : s.checkAttributeFree field.field = .ok ()) :
      Edits s (.createProfileProperty spec)
        { s with profileProperties := s.profileProperties.insert field.field field }
  | updateProfileProperty {name : String} {spec : Field.Spec} {field : Field}
      (compiled : Field.compile spec = .ok field) (same : name = field.field)
      (present : s.profileProperties.contains name) :
      Edits s (.updateProfileProperty name spec)
        { s with profileProperties := s.profileProperties.insert name field }
  | deleteProfileProperty {name : String} (present : s.profileProperties.contains name) :
      Edits s (.deleteProfileProperty name)
        { s with profileProperties := s.profileProperties.erase name }
  | createComputedField {spec : ComputedField.Spec} {field : ComputedField} {next : Snapshot}
      (compiled : ComputedField.compile spec = .ok field)
      (free : s.checkAttributeFree field.field = .ok ())
      (ordered : { s with computed := s.computed.insert field.field field }.reordered = .ok next) :
      Edits s (.createComputedField spec) next
  | updateComputedField {name : String} {spec : ComputedField.Spec} {field : ComputedField}
      {next : Snapshot} (compiled : ComputedField.compile spec = .ok field)
      (same : name = field.field) (present : s.computed.contains name)
      (ordered : { s with computed := s.computed.insert name field }.reordered = .ok next) :
      Edits s (.updateComputedField name spec) next
  | deleteComputedField {name : String} {next : Snapshot} (present : s.computed.contains name)
      (unused : s.dependentsOf name = [])
      (ordered : { s with computed := s.computed.erase name }.reordered = .ok next) :
      Edits s (.deleteComputedField name) next
  | createSegment {stamp : Stamp} {spec : Segment.Spec} {segment : Segment}
      (compiled : Segment.compile stamp.id stamp.time spec = .ok segment)
      (free : s.checkSegmentFree segment.name none = .ok ()) :
      Edits s (.createSegment stamp spec)
        { s with segments := s.segments.insert segment.id segment }
  | updateSegment {stamp : Stamp} {spec : Segment.Spec} {segment held : Segment}
      (compiled : Segment.compile stamp.id stamp.time spec = .ok segment)
      (free : s.checkSegmentFree segment.name (some stamp.id) = .ok ())
      (present : s.segments.get? stamp.id = some held) :
      Edits s (.updateSegment stamp spec)
        { s with
          segments := s.segments.insert segment.id { segment with createdAt := held.createdAt } }
  | deleteSegment {id : Uuid} (present : s.segments.contains id) :
      Edits s (.deleteSegment id) { s with segments := s.segments.erase id }

/-- What an operation on a project that makes one of some edits can lead to: it is refused and
leaves all snapshots as they are, or it edits the snapshot of the project, which gets the next
version. -/
inductive Led (r : Registry) (project : String) (made : Snapshot → Prop) {α : Type} :
    Outcome α → Prop
  | refused {e : Error} {next : Registry} (kept : ∀ other, next.snapshot other = r.snapshot other) :
      Led r project made (.error e, next)
  | accepted {a : α} {next : Registry} {edited : Snapshot} (edit : made edited)
      (changed : ∀ other, next.snapshot other =
        if project = other then { edited with version := (r.snapshot project).version + 1 }
        else r.snapshot other) :
      Led r project made (.ok a, next)

variable {r : Registry} {project : String} {made : Snapshot → Prop}

/-- A project that is inserted has its snapshot, and the others have theirs. -/
lemma snapshot_insert (r : Registry) (project other : String) (s : Snapshot) :
    snapshot ⟨r.projects.insert project s⟩ other =
      if project = other then s else r.snapshot other := by
  unfold snapshot
  rw [Index.get?_insert]
  split <;> rfl

/-- A change leads to what its edit makes of the snapshot. -/
lemma change_led {α : Type} {edit : Snapshot → Result (α × Snapshot)}
    (h : ∀ a next, edit (r.snapshot project) = .ok (a, next) → made next) :
    Led r project made (r.change project edit) := by
  simp only [change]
  split
  case h_1 a next hedit => exact .accepted (h a next hedit) (snapshot_insert r project · _)
  case h_2 e hedit =>
    refine .refused fun other => ?_
    rw [snapshot_insert]
    split
    case isTrue heq => rw [heq]
    case isFalse => rfl

/-- So does a change that starts with the check of a definition. -/
lemma submit_led {α β : Type} {definition : Result α}
    {edit : α → Snapshot → Result (β × Snapshot)}
    (h : ∀ a b next, definition = .ok a → edit a (r.snapshot project) = .ok (b, next) → made next) :
    Led r project made (r.submit project definition edit) := by
  unfold submit
  split
  case h_1 a => exact change_led fun b next hedit => h a b next rfl hedit
  case h_2 e => exact .refused fun _ => rfl

/-- What an operation leads to does not depend on its answer. -/
lemma Led.discard {α : Type} {outcome : Outcome α} (h : Led r project made outcome) :
    Led r project made outcome.discard := by
  cases h with
  | refused kept => exact .refused kept
  | accepted edit changed => exact .accepted edit changed

/-! ### The checks of an operation -/

/-- The names are the same if their check is passed. -/
lemma checkSameName_eq_ok {what held requested : String} {u : Unit} :
    checkSameName what held requested = .ok u ↔ held = requested := by
  unfold checkSameName
  split <;> simp_all

/-- Something is present if its check is passed. -/
lemma checkPresent_eq_ok {kind : Kind} {name : String} {present : Bool} {u : Unit} :
    checkPresent kind name present = .ok u ↔ present = true := by
  unfold checkPresent
  split <;> simp_all

/-- A look-up succeeds with what is found. -/
lemma found_eq_ok {α : Type} {kind : Kind} {name : String} {held : Option α} {a : α} :
    found kind name held = .ok a ↔ held = some a := by
  cases held <;> simp [found]

/-- An event is renewed by one that compiles and has its name. -/
lemma renewedEventSchema_eq_ok {name : String} {spec : EventSchema.Spec} {schema : EventSchema} :
    renewedEventSchema name spec = .ok schema ↔
      EventSchema.compile spec = .ok schema ∧ name = schema.eventName := by
  simp only [renewedEventSchema, bind_eq_ok, checkSameName_eq_ok, pure_eq_ok]
  constructor
  · rintro ⟨_, hcompiled, -, hsame, rfl⟩
    exact ⟨hcompiled, hsame⟩
  · rintro ⟨hcompiled, hsame⟩
    exact ⟨schema, hcompiled, (), hsame, rfl⟩

/-- A declared attribute is renewed by one that compiles and has its name. -/
lemma renewedProfileProperty_eq_ok {name : String} {spec : Field.Spec} {field : Field} :
    renewedProfileProperty name spec = .ok field ↔
      Field.compile spec = .ok field ∧ name = field.field := by
  simp only [renewedProfileProperty, bind_eq_ok, checkSameName_eq_ok, pure_eq_ok]
  constructor
  · rintro ⟨_, hcompiled, -, hsame, rfl⟩
    exact ⟨hcompiled, hsame⟩
  · rintro ⟨hcompiled, hsame⟩
    exact ⟨field, hcompiled, (), hsame, rfl⟩

/-- A computed field is renewed by one that compiles and has its name. -/
lemma renewedComputedField_eq_ok {name : String} {spec : ComputedField.Spec}
    {field : ComputedField} :
    renewedComputedField name spec = .ok field ↔
      ComputedField.compile spec = .ok field ∧ name = field.field := by
  simp only [renewedComputedField, bind_eq_ok, checkSameName_eq_ok, pure_eq_ok]
  constructor
  · rintro ⟨_, hcompiled, -, hsame, rfl⟩
    exact ⟨hcompiled, hsame⟩
  · rintro ⟨hcompiled, hsame⟩
    exact ⟨field, hcompiled, (), hsame, rfl⟩

/-! ### What operations do -/

/-- Every operation is refused and leaves all snapshots as they are, or makes its edit.

**Proof sketch.** By the operation: behind its checks it makes one change, and the checks that were
passed are what the edit asks for. -/
theorem perform_led (r : Registry) (project : String) (op : Operation) :
    Led r project (Edits (r.snapshot project) op) (r.perform project op) := by
  cases op with
  | createEventSchema spec =>
    refine (submit_led fun schema b next hcompiled hedit => ?_).discard
    simp only [throw_bind, guard_eq_ok, pure_eq_ok, Prod.mk.injEq] at hedit
    obtain ⟨hfree, -, rfl⟩ := hedit
    exact .createEventSchema hcompiled hfree
  | updateEventSchema name spec =>
    refine (submit_led fun schema b next hcompiled hedit => ?_).discard
    simp only [bind_eq_ok, checkPresent_eq_ok, pure_eq_ok, Prod.mk.injEq] at hedit
    obtain ⟨-, hpresent, -, rfl⟩ := hedit
    obtain ⟨hcompiled, hsame⟩ := renewedEventSchema_eq_ok.1 hcompiled
    exact .updateEventSchema hcompiled hsame hpresent
  | deleteEventSchema name =>
    unfold perform deleteEventSchema
    refine change_led fun b next hedit => ?_
    simp only [bind_eq_ok, checkPresent_eq_ok, pure_eq_ok, Prod.mk.injEq] at hedit
    obtain ⟨-, hpresent, -, rfl⟩ := hedit
    exact .deleteEventSchema hpresent
  | createProfileProperty spec =>
    refine (submit_led fun field b next hcompiled hedit => ?_).discard
    simp only [bind_eq_ok, pure_eq_ok, Prod.mk.injEq] at hedit
    obtain ⟨_, hfree, -, rfl⟩ := hedit
    exact .createProfileProperty hcompiled hfree
  | updateProfileProperty name spec =>
    refine (submit_led fun field b next hcompiled hedit => ?_).discard
    simp only [bind_eq_ok, checkPresent_eq_ok, pure_eq_ok, Prod.mk.injEq] at hedit
    obtain ⟨-, hpresent, -, rfl⟩ := hedit
    obtain ⟨hcompiled, hsame⟩ := renewedProfileProperty_eq_ok.1 hcompiled
    exact .updateProfileProperty hcompiled hsame hpresent
  | deleteProfileProperty name =>
    unfold perform deleteProfileProperty
    refine change_led fun b next hedit => ?_
    simp only [bind_eq_ok, checkPresent_eq_ok, pure_eq_ok, Prod.mk.injEq] at hedit
    obtain ⟨-, hpresent, -, rfl⟩ := hedit
    exact .deleteProfileProperty hpresent
  | createComputedField spec =>
    refine (submit_led fun field b next hcompiled hedit => ?_).discard
    simp only [bind_eq_ok, pure_eq_ok, Prod.mk.injEq] at hedit
    obtain ⟨_, hfree, next, hordered, -, rfl⟩ := hedit
    exact .createComputedField hcompiled hfree hordered
  | updateComputedField name spec =>
    refine (submit_led fun field b next hcompiled hedit => ?_).discard
    simp only [bind_eq_ok, checkPresent_eq_ok, pure_eq_ok, Prod.mk.injEq] at hedit
    obtain ⟨-, hpresent, next, hordered, -, rfl⟩ := hedit
    obtain ⟨hcompiled, hsame⟩ := renewedComputedField_eq_ok.1 hcompiled
    exact .updateComputedField hcompiled hsame hpresent hordered
  | deleteComputedField name =>
    unfold perform deleteComputedField
    refine change_led fun b next hedit => ?_
    simp only [bind_eq_ok, checkPresent_eq_ok, throw_bind, guard_eq_ok, pure_eq_ok,
      Prod.mk.injEq] at hedit
    obtain ⟨-, hpresent, hunused, next, hordered, -, rfl⟩ := hedit
    exact .deleteComputedField hpresent (by simpa using hunused) hordered
  | createSegment stamp spec =>
    refine (submit_led fun segment b next hcompiled hedit => ?_).discard
    simp only [bind_eq_ok, pure_eq_ok, Prod.mk.injEq] at hedit
    obtain ⟨_, hfree, -, rfl⟩ := hedit
    exact .createSegment hcompiled hfree
  | updateSegment stamp spec =>
    refine (submit_led fun segment b next hcompiled hedit => ?_).discard
    simp only [bind_eq_ok, found_eq_ok, pure_eq_ok, Prod.mk.injEq] at hedit
    obtain ⟨_, hfree, held, hpresent, -, rfl⟩ := hedit
    exact .updateSegment hcompiled hfree hpresent
  | deleteSegment id =>
    unfold perform deleteSegment
    refine change_led fun b next hedit => ?_
    simp only [bind_eq_ok, checkPresent_eq_ok, pure_eq_ok, Prod.mk.injEq] at hedit
    obtain ⟨-, hpresent, -, rfl⟩ := hedit
    exact .deleteSegment hpresent

/-- A property of snapshots that edits keep is kept by an operation: it leaves a snapshot as it is,
or makes an edit of it. -/
lemma perform_keeps {P : Snapshot → Prop}
    (edit : ∀ {s : Snapshot} {op : Operation} {edited : Snapshot}, P s → Edits s op edited →
      P { edited with version := s.version + 1 })
    (h : ∀ project, P (r.snapshot project)) (project : String) (op : Operation) (other : String) :
    P ((r.perform project op).2.snapshot other) := by
  have hled := perform_led r project op
  generalize r.perform project op = outcome at hled
  cases hled with
  | refused kept =>
    rw [kept]
    exact h other
  | accepted made hnext =>
    rw [hnext]
    split
    · exact edit (h project) made
    · exact h other

/-- A property of snapshots that new projects have and that edits keep holds of every snapshot after
any operations.

**Proof sketch.** Induction on the operations from the last one, which keeps it. -/
theorem after_induction {P : Snapshot → Prop} (empty : ∀ project, P (.empty project))
    (edit : ∀ {s : Snapshot} {op : Operation} {edited : Snapshot}, P s → Edits s op edited →
      P { edited with version := s.version + 1 })
    (steps : List (String × Operation)) (project : String) :
    P ((after steps).snapshot project) := by
  induction steps using List.reverseRecOn generalizing project with
  | nil => exact empty project
  | append_singleton steps step ih =>
    rw [after_concat]
    exact perform_keeps edit ih step.1 step.2 project

end Cohort.Registry
