import Cohort.Proofs.Definition
import Cohort.Proofs.Registry.Deletion
set_option relaxedAutoImplicit false
set_option autoImplicit false

/-!
# What operations leave alone

Every operation is about one definition of one project. If it is refused nothing changes at all; if
it is accepted nothing changes but that definition, the version of the project, and for a computed
field the order of evaluation.

## Main definitions

* `Cohort.Registry.Address` and `Cohort.Registry.Operation.address` — the definition that an
  operation is about.
* `Cohort.Snapshot.Frame` — two snapshots that agree on all other definitions.

## Main results

* `Cohort.Registry.Edits.frame` — an edit leaves all other definitions as they are.
* `Cohort.Registry.perform_atomic` — an operation changes one definition of one project, or nothing.
-/

namespace Cohort

namespace Registry

/-- A definition of a project, by its kind and its name or identifier. -/
inductive Address where
  | eventSchema (name : String)
  | profileProperty (name : String)
  | computedField (name : String)
  | segment (id : Uuid)

/-- The definition that an operation is about. Submitted names count without the blanks around
them. -/
def Operation.address : Operation → Address
  | .createEventSchema spec => .eventSchema (Text.trim spec.eventName)
  | .updateEventSchema name _ => .eventSchema name
  | .deleteEventSchema name => .eventSchema name
  | .createProfileProperty spec => .profileProperty (Text.trim spec.field)
  | .updateProfileProperty name _ => .profileProperty name
  | .deleteProfileProperty name => .profileProperty name
  | .createComputedField spec => .computedField (Text.trim spec.field)
  | .updateComputedField name _ => .computedField name
  | .deleteComputedField name => .computedField name
  | .createSegment stamp _ => .segment stamp.id
  | .updateSegment stamp _ => .segment stamp.id
  | .deleteSegment id => .segment id

end Registry

open Registry

/-- Two snapshots of a project that agree on all definitions but the one at an address, and on the
order of evaluation unless that is a computed field. Of the versions nothing is said. -/
structure Snapshot.Frame (a : Address) (s t : Snapshot) : Prop where
  /-- They are snapshots of one project. -/
  project : t.project = s.project
  /-- They agree on all other events. -/
  eventSchemas : ∀ name, a ≠ .eventSchema name →
    t.eventSchemas.get? name = s.eventSchemas.get? name
  /-- They agree on all other raw attributes. -/
  profileProperties : ∀ name, a ≠ .profileProperty name →
    t.profileProperties.get? name = s.profileProperties.get? name
  /-- They agree on all other computed fields. -/
  computed : ∀ name, a ≠ .computedField name → t.computed.get? name = s.computed.get? name
  /-- They agree on all other segments. -/
  segments : ∀ id, a ≠ .segment id → t.segments.get? id = s.segments.get? id
  /-- Unless they disagree on a computed field they agree on the order of evaluation. -/
  evaluationOrder : (∀ name, a ≠ .computedField name) → t.evaluationOrder = s.evaluationOrder

namespace Snapshot.Frame

variable {s : Snapshot}

/-- A snapshot agrees with itself on all definitions. -/
lemma refl (a : Address) (s : Snapshot) : Frame a s s where
  project := rfl
  eventSchemas _ _ := rfl
  profileProperties _ _ := rfl
  computed _ _ := rfl
  segments _ _ := rfl
  evaluationOrder _ := rfl

/-- Another index of events with the same look-ups under all other names. -/
lemma withEventSchemas {name : String} {index : Index String EventSchema}
    (h : ∀ other, other ≠ name → index.get? other = s.eventSchemas.get? other) :
    Frame (.eventSchema name) s { s with eventSchemas := index } :=
  { refl _ s with
    eventSchemas := fun other hne => h other fun heq => hne (heq ▸ rfl) }

/-- Another index of attributes with the same look-ups under all other names. -/
lemma withProfileProperties {name : String} {index : Index String Field}
    (h : ∀ other, other ≠ name → index.get? other = s.profileProperties.get? other) :
    Frame (.profileProperty name) s { s with profileProperties := index } :=
  { refl _ s with
    profileProperties := fun other hne => h other fun heq => hne (heq ▸ rfl) }

/-- Other computed fields may have another order. -/
lemma withComputed {name : String} {index : Index String ComputedField} {order : List String}
    (h : ∀ other, other ≠ name → index.get? other = s.computed.get? other) :
    Frame (.computedField name) s { s with computed := index, evaluationOrder := order } :=
  { refl _ s with
    computed := fun other hne => h other fun heq => hne (heq ▸ rfl)
    evaluationOrder := fun hne => absurd rfl (hne name) }

/-- Another index of segments with the same look-ups under all other identifiers. -/
lemma withSegments {id : Uuid} {index : Index Uuid Segment}
    (h : ∀ other, other ≠ id → index.get? other = s.segments.get? other) :
    Frame (.segment id) s { s with segments := index } :=
  { refl _ s with
    segments := fun other hne => h other fun heq => hne (heq ▸ rfl) }

end Snapshot.Frame

namespace Registry

/-- An edit leaves all definitions as they are but the one that the operation is about.

**Proof sketch.** Every edit puts a definition into one index of the snapshot, or takes one out. It
does so under the name that the operation gives or, where the operation creates a definition, under
the name that was read from the submitted one. -/
theorem Edits.frame {s edited : Snapshot} {op : Operation} (h : Edits s op edited) :
    s.Frame op.address edited := by
  cases h with
  | createEventSchema compiled free =>
    rw [Operation.address, ← (EventSchema.compile_eq_ok compiled).1]
    exact .withEventSchemas fun other hne => by simp [hne.symm]
  | updateEventSchema compiled same present =>
    exact .withEventSchemas fun other hne => by simp [hne.symm]
  | deleteEventSchema present =>
    exact .withEventSchemas fun other hne => by simp [hne.symm]
  | createProfileProperty compiled free =>
    rw [Operation.address, ← (Field.compile_eq_ok compiled).1]
    exact .withProfileProperties fun other hne => by simp [hne.symm]
  | updateProfileProperty compiled same present =>
    exact .withProfileProperties fun other hne => by simp [hne.symm]
  | deleteProfileProperty present =>
    exact .withProfileProperties fun other hne => by simp [hne.symm]
  | createComputedField compiled free ordered =>
    obtain ⟨order, -, rfl⟩ := Snapshot.reordered_eq_ok.1 ordered
    rw [Operation.address, ← (ComputedField.compile_eq_ok compiled).1]
    exact .withComputed fun other hne => by simp [hne.symm]
  | updateComputedField compiled same present ordered =>
    obtain ⟨order, -, rfl⟩ := Snapshot.reordered_eq_ok.1 ordered
    exact .withComputed fun other hne => by simp [hne.symm]
  | deleteComputedField present unused ordered =>
    obtain ⟨order, -, rfl⟩ := Snapshot.reordered_eq_ok.1 ordered
    exact .withComputed fun other hne => by simp [hne.symm]
  | createSegment compiled free =>
    obtain ⟨filters, -, -, rfl⟩ := Segment.compile_eq_ok.1 compiled
    exact .withSegments fun other hne => by simp [hne.symm]
  | updateSegment compiled free present =>
    obtain ⟨filters, -, -, rfl⟩ := Segment.compile_eq_ok.1 compiled
    exact .withSegments fun other hne => by simp [hne.symm]
  | deleteSegment present =>
    exact .withSegments fun other hne => by simp [hne.symm]

/-- An operation with any arguments on any registry, whatever operations led to it: if it is
refused, for whatever reason, the snapshots of all projects are as they were; if it is accepted, the
snapshots of all other projects are as they were, and that of its project has the next version and
differs in nothing else but the definition that the operation is about and, if this is a computed
field, the order of evaluation.

**Proof sketch.** An operation is refused or makes its edit (`perform_led`), and every edit stays
within its frame. -/
theorem perform_atomic (r : Registry) (project : String) (op : Operation) :
    let next := (r.perform project op).2
    (∀ e, (r.perform project op).1 = .error e → ∀ other, next.snapshot other = r.snapshot other) ∧
      ((r.perform project op).1 = .ok () →
        (∀ other, other ≠ project → next.snapshot other = r.snapshot other) ∧
          (next.snapshot project).version = (r.snapshot project).version + 1 ∧
          (r.snapshot project).Frame op.address (next.snapshot project)) := by
  have hled := perform_led r project op
  simp only
  generalize r.perform project op = outcome at hled
  cases hled with
  | refused kept =>
    constructor
    · intro e _ other
      exact kept other
    · intro hok
      cases hok
  | @accepted _ _ edited made changed =>
    constructor
    · intro e herror
      cases herror
    · intro _
      refine ⟨fun other hne => ?_, ?_, ?_⟩
      · rw [changed, if_neg hne.symm]
      · rw [changed, if_pos rfl]
      · rw [changed, if_pos rfl]
        exact { made.frame with }

/-- In the shop the visits cannot be deleted, since the label mentions them, but the segment of the
visitors can; then the visits are still there, in the next version. -/
theorem shop_atomic :
    ((after shopSteps).perform "shop" (.deleteComputedField "visits")).1 =
        .error (.inUse "visits" ["label", "segment 'visitors'"]) ∧
      ((after shopSteps).perform "shop" (.deleteComputedField "visits")).2.snapshot "shop" = shop ∧
      ((after shopSteps).perform "shop" (.deleteSegment opening.id)).1 = .ok () ∧
      (((after shopSteps).perform "shop" (.deleteSegment opening.id)).2.snapshot "shop").version =
        4 ∧
      (((after shopSteps).perform "shop"
        (.deleteSegment opening.id)).2.snapshot "shop").computed.get? "visits" =
          some visitsField := by
  have hrefused : ((after shopSteps).perform "shop" (.deleteComputedField "visits")).1 =
      .error (.inUse "visits" ["label", "segment 'visitors'"]) := by
    rw [perform, deleteComputedField, change_fst, shop_eq]
    rfl
  have haccepted : ((after shopSteps).perform "shop" (.deleteSegment opening.id)).1 = .ok () := by
    rw [perform, deleteSegment, change_fst, shop_eq]
    rfl
  have hatomic := (perform_atomic (after shopSteps) "shop" (.deleteComputedField "visits")).1
  obtain ⟨-, hversion, hframe⟩ :=
    (perform_atomic (after shopSteps) "shop" (.deleteSegment opening.id)).2 haccepted
  refine ⟨hrefused, ?_, haccepted, ?_, ?_⟩
  · rw [hatomic _ hrefused, shop_eq]
  · rw [hversion, shop_eq]
    rfl
  · rw [hframe.computed "visits" (by simp [Operation.address]), shop_eq]
    rfl

end Registry

end Cohort
