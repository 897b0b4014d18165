import Cohort.Membership
import Cohort.Proofs.Registry.Deletion
import Cohort.Proofs.Subject.Meaning
set_option relaxedAutoImplicit false
set_option autoImplicit false

/-!
# Deletions are harmless

Without its computed field a name stands for a raw attribute, which may have another value. But a
field is deleted only if no formula and no filter mentions it. So whatever is asked of a profile
afterwards, except for the deleted field itself, is looked up in the same steps and has the same
answer.

## Main definitions

* `Cohort.Snapshot.Leaves` — what a deletion leaves of a snapshot.
* `Cohort.Subject.redefined` — a subject under other definitions.

## Main results

* `Cohort.Registry.deleteComputedField_leaves` — an accepted deletion leaves all but the deleted
  field, which nothing reads.
* `Cohort.Subject.valueOf_redefined`, `Cohort.Segment.membership_redefined` — attributes and
  memberships are the same before and after.
* `Cohort.Registry.deleteComputedField_harmless` — after any operations an accepted deletion changes
  no other computed field and no segment of any profile.
-/

namespace Cohort

/-- What the deletion of a computed field leaves of a snapshot, where nothing reads the field. -/
structure Snapshot.Leaves (s : Snapshot) (name : String) (t : Snapshot) : Prop where
  /-- All other computed fields are kept. -/
  computed_eq : t.computed = s.computed.erase name
  /-- All segments are kept. -/
  segments_eq : t.segments = s.segments
  /-- No formula mentions the field. -/
  unread : ∀ (other : String) (f : ComputedField), s.computed.get? other = some f →
    name ∉ f.references
  /-- No filter of a segment mentions the field. -/
  unfiltered : ∀ (id : Uuid) (g : Segment), s.segments.get? id = some g →
    name ∉ g.referencedProperties

namespace Snapshot

variable {s t : Snapshot} {name : String}

/-- Other computed fields stay what they were. -/
lemma Leaves.get?_eq (h : s.Leaves name t) {other : String} (hother : other ≠ name) :
    t.computed.get? other = s.computed.get? other := by
  rw [h.computed_eq, Index.get?_erase, if_neg (Ne.symm hother)]

/-- An attribute without dependents is mentioned by no formula and no filter.

**Proof sketch.** Dependents are the fields and the segments that mention the attribute, and both
lists are empty. -/
lemma notMem_of_dependentsOf_eq_nil (h : s.dependentsOf name = []) :
    (∀ other f, s.computed.get? other = some f → name ∉ f.references) ∧
      ∀ id g, s.segments.get? id = some g → name ∉ g.referencedProperties := by
  obtain ⟨hreaders, hsegments⟩ := List.append_eq_nil_iff.1 h
  constructor
  · intro other f hf hread
    have hmem : f ∈ s.computed.values.filter fun f => name ∈ f.references :=
      List.mem_filter.2 ⟨Index.mem_values.2 ⟨other, hf⟩, decide_eq_true hread⟩
    rw [List.map_eq_nil_iff.1 hreaders] at hmem
    cases hmem
  · intro id g hg hread
    have hmem : g ∈ s.segmentsReading name :=
      List.mem_filter.2 ⟨Index.mem_values.2 ⟨id, hg⟩, decide_eq_true hread⟩
    rw [List.map_eq_nil_iff.1 hsegments] at hmem
    cases hmem

end Snapshot

/-- An accepted deletion leaves all but the deleted field, which nothing reads. -/
theorem Registry.deleteComputedField_leaves {r : Registry} {project name : String}
    (h : (r.deleteComputedField project name).1 = .ok ()) :
    (r.snapshot project).Leaves name ((r.deleteComputedField project name).2.snapshot project) := by
  have hled := perform_led r project (.deleteComputedField name)
  rw [perform] at hled
  generalize r.deleteComputedField project name = outcome at h hled
  cases hled with
  | refused => cases h
  | accepted edit changed =>
    simp only
    rw [changed, if_pos rfl]
    cases edit with
    | deleteComputedField present unused ordered =>
      obtain ⟨order, -, rfl⟩ := Snapshot.reordered_eq_ok.1 ordered
      obtain ⟨hread, hfiltered⟩ := Snapshot.notMem_of_dependentsOf_eq_nil unused
      exact ⟨rfl, rfl, hread, hfiltered⟩

/-! ### Subjects under other definitions -/

namespace Subject

variable {s : Subject} {t : Snapshot} {name : String}

/-- A subject under other definitions. -/
def redefined (s : Subject) (t : Snapshot) : Subject := { s with snapshot := t }

/-- Working a field out looks at no definitions but through the scope. -/
lemma fieldValue_redefined (s : Subject) (t : Snapshot) (name : String) (f : ComputedField)
    (scope : String → Lookup Json) :
    (s.redefined t).fieldValue name f scope = s.fieldValue name f scope := rfl

/-- A deletion changes no look-up of another attribute.

**Proof sketch.** Induction along what computed fields read. Another attribute is a computed field
after the deletion if it was one before, with the same formula; and what the formula mentions is not
the deleted field either. -/
theorem valueOf_redefined (h : s.snapshot.Leaves name t) (hs : s.snapshot.Ordered)
    (ht : t.Ordered) {other : String} (hother : other ≠ name) :
    (s.redefined t).valueOf other = s.valueOf other := by
  induction other using hs.induction with
  | raw other hf =>
    have hf' : (s.redefined t).snapshot.computed.get? other = none :=
      (h.get?_eq hother).trans hf
    rw [valueOf_raw hf, valueOf_raw hf']
    rfl
  | field other f hf ih =>
    have hf' : (s.redefined t).snapshot.computed.get? other = some f :=
      (h.get?_eq hother).trans hf
    rw [valueOf_field hs hf, valueOf_field (s := s.redefined t) ht hf', fieldValue_redefined]
    refine fieldValue_congr fun read hread => ih read hread ?_
    rintro rfl
    exact h.unread other f hf hread

/-- A deletion changes no other computed field on request. -/
theorem computedValue_redefined (h : s.snapshot.Leaves name t) (hs : s.snapshot.Ordered)
    (ht : t.Ordered) {field : String} (hother : field ≠ name) :
    (s.redefined t).computedValue field = s.computedValue field := by
  have hget : (s.redefined t).snapshot.computed.get? field = s.snapshot.computed.get? field :=
    h.get?_eq hother
  unfold computedValue
  rw [hget, valueOf_redefined h hs ht hother]

end Subject

/-! ### Memberships -/

section Membership

variable {s : Subject} {t : Snapshot} {name : String}

/-- A deletion changes no filter that does not mention the deleted field. -/
lemma Filter.accepts_redefined (h : s.snapshot.Leaves name t) (hs : s.snapshot.Ordered)
    (ht : t.Ordered) {filter : Filter}
    (hfilter : ∀ constraints, filter ≠ .property name constraints) :
    filter.accepts (s.redefined t) = filter.accepts s := by
  cases filter with
  | event => rfl
  | property other constraints =>
    have hother : other ≠ name := by
      rintro rfl
      exact hfilter constraints rfl
    simp only [accepts]
    rw [Subject.valueOf_redefined h hs ht hother]

namespace Segment

/-- A deletion does not change whether a subject passes filters that do not mention the deleted
field.

**Proof sketch.** Induction on the filters. -/
lemma acceptsAll_redefined (h : s.snapshot.Leaves name t) (hs : s.snapshot.Ordered)
    (ht : t.Ordered) {filters : List Filter}
    (hfilters : ∀ filter ∈ filters, ∀ constraints, filter ≠ .property name constraints) :
    acceptsAll (s.redefined t) filters = acceptsAll s filters := by
  unfold acceptsAll
  induction filters with
  | nil => rfl
  | cons filter filters ih =>
    have hhead := Filter.accepts_redefined h hs ht (hfilters filter List.mem_cons_self)
    have htail := ih fun f hf => hfilters f (List.mem_cons_of_mem _ hf)
    simp only [List.allM]
    rw [hhead, htail]

/-- A segment that does not mention an attribute has no filter on it. -/
lemma ne_property_of_notMem {g : Segment} (hg : name ∉ g.referencedProperties) {filter : Filter}
    (hfilter : filter ∈ g.filters) (constraints : List Constraint) :
    filter ≠ .property name constraints := by
  rintro rfl
  exact hg (List.mem_filterMap.2 ⟨_, hfilter, rfl⟩)

/-- A deletion changes no membership in a segment that does not mention the deleted field. -/
theorem membership_redefined (h : s.snapshot.Leaves name t) (hs : s.snapshot.Ordered)
    (ht : t.Ordered) {g : Segment} (hg : name ∉ g.referencedProperties) :
    g.membership (s.redefined t) = g.membership s := by
  have haccepts : acceptsAll (s.redefined t) g.filters = acceptsAll s g.filters :=
    acceptsAll_redefined h hs ht fun _ hfilter => ne_property_of_notMem hg hfilter
  unfold membership membershipIn
  rw [haccepts]

end Segment

end Membership

/-! ### Deletions after any operations -/

namespace Registry

/-- After any operations an accepted deletion removes the computed field and nothing else, and of
every profile, with any events and within any limits, all other computed fields and all memberships
are looked up as before, with the same values and marks.

**Proof sketch.** Both snapshots are ordered, and the deletion was accepted because neither a
formula nor a filter mentions the field. So no look-up of anything else comes to it. -/
theorem deleteComputedField_harmless {steps : List (String × Operation)} {project name : String}
    (h : ((after steps).deleteComputedField project name).1 = .ok ()) (profile : Profile)
    (events : List Event) (limits : ScanLimits) (now : Instant) :
    let before := (after steps).snapshot project
    let remaining := ((after steps).deleteComputedField project name).2.snapshot project
    let was : Subject := ⟨before, profile, events, limits, now⟩
    let is : Subject := ⟨remaining, profile, events, limits, now⟩
    remaining.computed = before.computed.erase name ∧ remaining.segments = before.segments ∧
      (∀ field, field ≠ name → is.computedValue field = was.computedValue field) ∧
      ∀ id g, remaining.segments.get? id = some g → g.membership is = g.membership was := by
  intro before remaining was is
  have hleaves : was.snapshot.Leaves name remaining := deleteComputedField_leaves h
  have hbefore : was.snapshot.Ordered := ordered_after steps project
  have hremaining : remaining.Ordered := by
    have hordered := ordered_after (steps ++ [(project, .deleteComputedField name)]) project
    rw [after_concat] at hordered
    exact hordered
  refine ⟨hleaves.computed_eq, hleaves.segments_eq, ?_, ?_⟩
  · intro field hother
    exact Subject.computedValue_redefined hleaves hbefore hremaining hother
  · intro id g hg
    rw [hleaves.segments_eq] at hg
    exact Segment.membership_redefined hleaves hbefore hremaining (hleaves.unfiltered id g hg)

/-- Nothing mentions the label of the shop. Without it the visits are counted as before, and the
visitors are the same. -/
theorem shop_without_label :
    ((after shopSteps).deleteComputedField "shop" "label").1 = .ok () ∧
      ∀ (profile : Profile) (events : List Event) (limits : ScanLimits) (now : Instant),
        let was : Subject := ⟨(after shopSteps).snapshot "shop", profile, events, limits, now⟩
        let is : Subject :=
          ⟨((after shopSteps).deleteComputedField "shop" "label").2.snapshot "shop", profile,
            events, limits, now⟩
        is.computedValue "visits" = was.computedValue "visits" ∧
          visitorsSegment.membership is = visitorsSegment.membership was := by
  have hdeleted : ((after shopSteps).deleteComputedField "shop" "label").1 = .ok () := by
    rw [deleteComputedField_eq (ordered_after shopSteps "shop"), shop_eq]
    rfl
  refine ⟨hdeleted, fun profile events limits now => ?_⟩
  obtain ⟨-, hsegments, hvalues, hmemberships⟩ :=
    deleteComputedField_harmless hdeleted profile events limits now
  have hvisitors : (((after shopSteps).deleteComputedField "shop" "label").2.snapshot
      "shop").segments.get? opening.id = some visitorsSegment := by
    rw [hsegments, shop_eq]
    rfl
  exact ⟨hvalues "visits" (by decide), hmemberships opening.id visitorsSegment hvisitors⟩

end Registry

end Cohort
