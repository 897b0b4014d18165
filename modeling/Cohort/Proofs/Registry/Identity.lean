import Cohort.Proofs.Definition
import Cohort.Proofs.Registry.Deletion
set_option relaxedAutoImplicit false
set_option autoImplicit false

/-!
# Names and identifiers in the registry

Whatever operations are made, every definition of a snapshot stands under its own name or
identifier, names are proper and belong to one definition, and a segment keeps its identifier and
the time of its creation for as long as it is not deleted and no new segment gets its identifier.
The registry does not look whether the identifier of a new segment is in use; it relies on the
generator of identifiers to give out new ones.

## Main definitions

* `Cohort.Index.Files` — every value of an index stands under its own key and has a property.
* `Cohort.Snapshot.Identified` — what the registry ensures about names and identifiers.
* `Cohort.Registry.FreshStamps` — operations that give no new segment an identifier in use.
* `Cohort.Registry.Keeps` — a segment that has an identifier and a time of creation.

## Main results

* `Cohort.Snapshot.Identified.edits` — every edit keeps that.
* `Cohort.Registry.keeps_after` — while its identifier is not given out again, no operation but its
  deletion changes the identifier of a segment or the time of its creation.
* `Cohort.Registry.identities_after` — both, after any operations.
-/

namespace Cohort

/-! ### Values under their own keys -/

/-- Every value of an index stands under its own key and has a property. -/
def Index.Files {κ α : Type} [LT κ] [DecidableEq κ] (index : Index κ α) (key : α → κ)
    (proper : α → Prop) : Prop :=
  ∀ (k : κ) (a : α), index.get? k = some a → key a = k ∧ proper a

namespace Index.Files

variable {κ α : Type} [LT κ] [DecidableEq κ] {index : Index κ α} {key : α → κ} {proper : α → Prop}

/-- In the index without keys all values stand under their own. -/
lemma empty : (Index.empty : Index κ α).Files key proper := by
  intro k a h
  cases h

/-- A value that is put under its own key keeps all values so. -/
lemma insert [DecidableLT κ] [Key κ] (h : index.Files key proper) {a : α} (ha : proper a) :
    (index.insert (key a) a).Files key proper := by
  intro j b hb
  rw [Index.get?_insert] at hb
  split at hb
  case isTrue hk =>
    cases hb
    exact ⟨hk, ha⟩
  case isFalse => exact h j b hb

/-- To erase a key leaves the other values under their own. -/
lemma erase [Key κ] (h : index.Files key proper) (k : κ) : (index.erase k).Files key proper := by
  intro j b hb
  rw [Index.get?_erase] at hb
  split at hb
  case isTrue => cases hb
  case isFalse => exact h j b hb

end Index.Files

/-! ### Proper definitions -/

/-- An event with proper names of its own and of its properties, none of which is declared twice. -/
structure EventSchema.Proper (schema : EventSchema) : Prop where
  /-- The event has a proper name. -/
  name : IsName schema.eventName
  /-- So has every property. -/
  propertyNames : ∀ field ∈ schema.properties, IsName field.field
  /-- No property is declared twice. -/
  nodup : (schema.properties.map Field.field).Nodup

/-- A computed field with a proper name that it does not read itself. -/
structure ComputedField.Proper (f : ComputedField) : Prop where
  /-- The field has a proper name. -/
  name : IsName f.field
  /-- A formula does not mention its own field. -/
  notSelf : ∀ source e, f.computation = .formula source e → f.field ∉ e.identifiers

/-- An event that compiles is proper. -/
lemma EventSchema.proper_of_compile {spec : Spec} {schema : EventSchema}
    (h : compile spec = .ok schema) : schema.Proper := by
  obtain ⟨-, hname, hproperties, hnodup⟩ := compile_eq_ok h
  exact ⟨hname, hproperties, hnodup⟩

/-- A computed field that compiles is proper. -/
lemma ComputedField.proper_of_compile {spec : Spec} {f : ComputedField}
    (h : compile spec = .ok f) : f.Proper := by
  obtain ⟨-, hname, hself⟩ := compile_eq_ok h
  refine ⟨hname, fun source e hformula => ?_⟩
  rw [← references_of_formula hformula]
  exact hself

namespace Snapshot

/-- What the registry ensures about the names and identifiers in a snapshot. -/
structure Identified (s : Snapshot) : Prop where
  /-- Events stand under their names, and neither they nor their properties share one. -/
  eventSchemas : s.eventSchemas.Files EventSchema.eventName EventSchema.Proper
  /-- Declared attributes stand under their names. -/
  profileProperties : s.profileProperties.Files Field.field fun field => IsName field.field
  /-- Computed fields stand under their names and do not read themselves. -/
  computed : s.computed.Files ComputedField.field ComputedField.Proper
  /-- Segments stand under their identifiers and have proper names. -/
  segments : s.segments.Files Segment.id fun segment => IsName segment.name
  /-- No attribute is both computed and raw. -/
  attribute_free : ∀ {name : String}, s.computed.contains name → ¬ s.profileProperties.contains name
  /-- No two segments have the same name. -/
  segment_unique : ∀ {id other : Uuid} {segment held : Segment},
    s.segments.get? id = some segment → s.segments.get? other = some held →
      segment.name = held.name → id = other

/-- A segment is found under its name if it is the only one with that name. -/
lemma segmentNamed?_eq_some {s : Snapshot} {g : Segment} (hg : g ∈ s.segments.values)
    (hunique : ∀ held ∈ s.segments.values, held.name = g.name → held = g) :
    s.segmentNamed? g.name = some g := by
  unfold segmentNamed?
  cases hfind : s.segments.values.find? (·.name = g.name) with
  | none => simpa using List.find?_eq_none.1 hfind g hg
  | some held =>
    have hname : held.name = g.name := by simpa using List.find?_some hfind
    rw [hunique held (List.mem_of_find?_eq_some hfind) hname]

/-- In an identified snapshot each segment is the only one with its name. -/
lemma Identified.segmentNamed?_eq {s : Snapshot} (h : s.Identified) {g : Segment}
    (hg : g ∈ s.segments.values) : s.segmentNamed? g.name = some g := by
  refine segmentNamed?_eq_some hg fun held hheld hname => ?_
  obtain ⟨id, hid⟩ := Index.mem_values.1 hg
  obtain ⟨other, hother⟩ := Index.mem_values.1 hheld
  rw [h.segment_unique hid hother hname.symm, hother] at hid
  exact Option.some.inj hid

/-- In the empty snapshot nothing stands under a wrong name or identifier. -/
lemma identified_empty (project : String) : (empty project).Identified where
  eventSchemas := .empty
  profileProperties := .empty
  computed := .empty
  segments := .empty
  attribute_free h := by cases h
  segment_unique h := by cases h

/-! ### What the checks ensure -/

/-- The name of an attribute is free if no attribute has it, computed or raw. -/
lemma checkAttributeFree_eq_ok {s : Snapshot} {name : String} {u : Unit} :
    s.checkAttributeFree name = .ok u ↔
      ¬ s.computed.contains name ∧ ¬ s.profileProperties.contains name := by
  simp [checkAttributeFree]

/-- The name of a segment is free if no other segment has it. -/
lemma checkSegmentFree_eq_ok {s : Snapshot} {name : String} {except : Option Uuid} {u : Unit} :
    s.checkSegmentFree name except = .ok u ↔
      ∀ segment ∈ s.segments.values, segment.name = name → some segment.id = except := by
  simp [checkSegmentFree]

namespace Identified

variable {s : Snapshot} (h : s.Identified)

include h

/-- A computed field under a name that is not raw leaves no attribute both. -/
lemma insert_computed {name : String} {f : ComputedField}
    (hraw : ¬ s.profileProperties.contains name) {other : String}
    (hother : (s.computed.insert name f).contains other) :
    ¬ s.profileProperties.contains other := by
  rcases Index.contains_insert.1 hother with rfl | hother
  · exact hraw
  · exact h.attribute_free hother

/-- A raw attribute under a name that is not computed leaves no attribute both. -/
lemma insert_raw {name : String} {field : Field} (hcomputed : ¬ s.computed.contains name)
    {other : String} (hother : s.computed.contains other) :
    ¬ (s.profileProperties.insert name field).contains other := by
  intro hin
  rcases Index.contains_insert.1 hin with rfl | hin
  · exact hcomputed hother
  · exact h.attribute_free hother hin

/-- Segments have different names after one was stored under a name that is free but for the one
with its identifier.

**Proof sketch.** A segment with the new name has the new identifier, and two segments that were
there before differ in their names already. -/
lemma insert_segment (segment : Segment)
    (hfree : ∀ held ∈ s.segments.values, held.name = segment.name → held.id = segment.id)
    {id other : Uuid} {a b : Segment}
    (ha : (s.segments.insert segment.id segment).get? id = some a)
    (hb : (s.segments.insert segment.id segment).get? other = some b) (hname : a.name = b.name) :
    id = other := by
  have hheld : ∀ {k : Uuid} {c : Segment}, s.segments.get? k = some c → c.name = segment.name →
      segment.id = k := fun hk hc =>
    (hfree _ (Index.mem_values.2 ⟨_, hk⟩) hc).symm.trans (h.segments _ _ hk).1
  rw [Index.get?_insert] at ha hb
  split at ha
  case isTrue hid =>
    cases ha
    split at hb
    case isTrue hother => exact hid.symm.trans hother
    case isFalse hother => exact absurd (hheld hb hname.symm) hother
  case isFalse hid =>
    split at hb
    case isTrue hother =>
      cases hb
      exact absurd (hheld ha hname) hid
    case isFalse => exact h.segment_unique ha hb hname

/-- Every edit keeps what the registry ensures about names and identifiers.

**Proof sketch.** By the edit. It changes one index, under the name or identifier of the definition
itself, and for attributes the other index has no such name. -/
theorem edits {op : Registry.Operation} {edited : Snapshot} (hedit : Registry.Edits s op edited) :
    edited.Identified := by
  cases hedit with
  | createEventSchema compiled free =>
    exact { h with eventSchemas := h.eventSchemas.insert (EventSchema.proper_of_compile compiled) }
  | updateEventSchema compiled same present =>
    subst same
    exact { h with eventSchemas := h.eventSchemas.insert (EventSchema.proper_of_compile compiled) }
  | deleteEventSchema present =>
    exact { h with eventSchemas := h.eventSchemas.erase _ }
  | createProfileProperty compiled free =>
    exact { h with
      profileProperties := h.profileProperties.insert (Field.compile_eq_ok compiled).2
      attribute_free := h.insert_raw (checkAttributeFree_eq_ok.1 free).1 }
  | @updateProfileProperty name spec field compiled same present =>
    subst same
    have hraw : ¬ s.computed.contains field.field := fun hin => h.attribute_free hin present
    exact { h with
      profileProperties := h.profileProperties.insert (Field.compile_eq_ok compiled).2
      attribute_free := h.insert_raw hraw }
  | deleteProfileProperty present =>
    exact { h with
      profileProperties := h.profileProperties.erase _
      attribute_free := fun hother hin => h.attribute_free hother (Index.contains_erase.1 hin).2 }
  | createComputedField compiled free ordered =>
    obtain ⟨order, -, rfl⟩ := reordered_eq_ok.1 ordered
    exact { h with
      computed := h.computed.insert (ComputedField.proper_of_compile compiled)
      attribute_free := h.insert_computed (checkAttributeFree_eq_ok.1 free).2 }
  | updateComputedField compiled same present ordered =>
    subst same
    obtain ⟨order, -, rfl⟩ := reordered_eq_ok.1 ordered
    exact { h with
      computed := h.computed.insert (ComputedField.proper_of_compile compiled)
      attribute_free := h.insert_computed (h.attribute_free present) }
  | deleteComputedField present unused ordered =>
    obtain ⟨order, -, rfl⟩ := reordered_eq_ok.1 ordered
    exact { h with
      computed := h.computed.erase _
      attribute_free := fun hother => h.attribute_free (Index.contains_erase.1 hother).2 }
  | createSegment compiled free =>
    obtain ⟨filters, -, hname, rfl⟩ := Segment.compile_eq_ok.1 compiled
    have hfree := checkSegmentFree_eq_ok.1 free
    exact { h with
      segments := h.segments.insert hname
      segment_unique := h.insert_segment _ fun held hheld hsame => by
        cases hfree held hheld hsame }
  | @updateSegment stamp spec segment held compiled free present =>
    obtain ⟨filters, -, hname, rfl⟩ := Segment.compile_eq_ok.1 compiled
    have hfree := checkSegmentFree_eq_ok.1 free
    let updated : Segment := ⟨stamp.id, Text.trim spec.name, spec.description, filters,
      held.createdAt, stamp.time⟩
    exact { h with
      segments := h.segments.insert (a := updated) hname
      segment_unique := h.insert_segment updated fun other hother hsame =>
        Option.some.inj (hfree other hother hsame) }
  | @deleteSegment id present =>
    have hold : ∀ {k : Uuid} {segment : Segment},
        (s.segments.erase id).get? k = some segment → s.segments.get? k = some segment := by
      intro k segment hk
      rw [Index.get?_erase] at hk
      split at hk
      case isTrue => cases hk
      case isFalse => exact hk
    exact { h with
      segments := h.segments.erase _
      segment_unique := fun ha hb hname => h.segment_unique (hold ha) (hold hb) hname }

end Identified

end Snapshot

namespace Registry

/-! ### Segments that stay -/

/-- The stamps that operations give to new segments of a project are fresh beside an identifier. The
generator of identifiers ensures that for those in use, since it never gives one out twice. -/
def FreshStamps (steps : List (String × Operation)) (project : String) (id : Uuid) : Prop :=
  ∀ stamp spec, (project, .createSegment stamp spec) ∈ steps → stamp.id ≠ id

/-- A segment under an identifier that has that identifier and was created at a time. -/
def Keeps (s : Snapshot) (id : Uuid) (created : Instant) : Prop :=
  ∃ segment, s.segments.get? id = some segment ∧ segment.id = id ∧ segment.createdAt = created

/-- An edit that does not delete a segment, nor gives its identifier to a new one, leaves it its
identifier and the time of its creation.

**Proof sketch.** A new segment is stored under another identifier. An update is then the only edit
that replaces the segment; it finds it by its identifier and takes the time over. -/
lemma Keeps.edits {s edited : Snapshot} {id : Uuid} {created : Instant} (h : Keeps s id created)
    {op : Operation} (hop : op ≠ .deleteSegment id)
    (hfresh : ∀ stamp spec, op = .createSegment stamp spec → stamp.id ≠ id)
    (hedit : Edits s op edited) : Keeps edited id created := by
  obtain ⟨segment, hsegment, hid, hcreated⟩ := h
  cases hedit with
  | createComputedField compiled free ordered =>
    obtain ⟨order, -, rfl⟩ := Snapshot.reordered_eq_ok.1 ordered
    exact ⟨segment, hsegment, hid, hcreated⟩
  | updateComputedField compiled same present ordered =>
    obtain ⟨order, -, rfl⟩ := Snapshot.reordered_eq_ok.1 ordered
    exact ⟨segment, hsegment, hid, hcreated⟩
  | deleteComputedField present unused ordered =>
    obtain ⟨order, -, rfl⟩ := Snapshot.reordered_eq_ok.1 ordered
    exact ⟨segment, hsegment, hid, hcreated⟩
  | @createSegment stamp spec new compiled free =>
    obtain ⟨filters, -, -, rfl⟩ := Segment.compile_eq_ok.1 compiled
    have hne : stamp.id ≠ id := hfresh stamp spec rfl
    exact ⟨segment, by simp [hne, hsegment], hid, hcreated⟩
  | @updateSegment stamp spec new held compiled free present =>
    obtain ⟨filters, -, -, rfl⟩ := Segment.compile_eq_ok.1 compiled
    by_cases hstamp : stamp.id = id
    · subst hstamp
      obtain rfl : segment = held := Option.some.inj (hsegment.symm.trans present)
      exact ⟨_, (Index.get?_insert ..).trans (if_pos rfl), rfl, hcreated⟩
    · exact ⟨segment, by simp [hstamp, hsegment], hid, hcreated⟩
  | @deleteSegment other present =>
    have hne : other ≠ id := fun heq => hop (heq ▸ rfl)
    exact ⟨segment, by simp [hne, hsegment], hid, hcreated⟩
  | _ => exact ⟨segment, hsegment, hid, hcreated⟩

/-- Operations that do not delete a segment, nor give its identifier to a new one, leave it its
identifier and the time of its creation.

**Proof sketch.** Induction on the operations from the last one, which is refused or makes an edit,
of this project or of another one. -/
lemma keeps_after {steps : List (String × Operation)} {project : String} {id : Uuid}
    {created : Instant} (h : Keeps ((after steps).snapshot project) id created)
    (more : List (String × Operation)) (hmore : (project, .deleteSegment id) ∉ more)
    (hfresh : FreshStamps more project id) :
    Keeps ((after (steps ++ more)).snapshot project) id created := by
  induction more using List.reverseRecOn with
  | nil => simpa using h
  | append_singleton more step ih =>
    simp only [List.mem_append, List.mem_singleton, not_or] at hmore
    obtain ⟨hbefore, hstep⟩ := hmore
    have hkept := ih hbefore fun stamp spec hin => hfresh stamp spec (List.mem_append_left _ hin)
    rw [← List.append_assoc, after_concat]
    obtain ⟨changed, op⟩ := step
    have hled := perform_led (after (steps ++ more)) changed op
    generalize (after (steps ++ more)).perform changed op = outcome at hled
    cases hled with
    | refused kept =>
      rw [kept]
      exact hkept
    | @accepted _ _ edited made hnext =>
      rw [hnext]
      split
      case isTrue hproject =>
        subst hproject
        have hop : op ≠ .deleteSegment id := fun heq => hstep (heq ▸ rfl)
        have hnew : ∀ stamp spec, op = .createSegment stamp spec → stamp.id ≠ id :=
          fun stamp spec heq => hfresh stamp spec (by simp [heq])
        have hedited : Keeps edited id created := hkept.edits hop hnew made
        exact hedited
      case isFalse => exact hkept

/-! ### Names and identifiers after any operations -/

/-- After any operations every snapshot is identified. -/
lemma identified_after (steps : List (String × Operation)) (project : String) :
    ((after steps).snapshot project).Identified :=
  after_induction Snapshot.identified_empty (fun h hedit => { h.edits hedit with }) steps project

/-- After any operations on any projects, refused ones among them, all definitions of a project
stand under their own names and identifiers, and names are proper and belong to one definition. From
then on a segment keeps its identifier and the time of its creation, whatever operations follow, as
long as it is not deleted. That much is asked of the generator of identifiers: it gives no new
segment of the project the identifier of one that is there.

**Proof sketch.** Every operation that stores a definition has read its name, trimmed and not empty,
stores it under that name, and has found the name free or taken by what it replaces. -/
theorem identities_after (steps : List (String × Operation)) (project : String) :
    let s := (after steps).snapshot project
    s.Identified ∧
      ∀ id segment, s.segments.get? id = some segment →
        ∀ more, (project, .deleteSegment id) ∉ more → FreshStamps more project id →
          ∃ kept, ((after (steps ++ more)).snapshot project).segments.get? id = some kept ∧
            kept.id = segment.id ∧ kept.createdAt = segment.createdAt := by
  intro s
  have hidentified : s.Identified := identified_after steps project
  refine ⟨hidentified, fun id segment hsegment more hmore hfresh => ?_⟩
  have hid : segment.id = id := (hidentified.segments id segment hsegment).1
  obtain ⟨kept, hkept, hkeptId, hcreated⟩ :=
    keeps_after ⟨segment, hsegment, hid, rfl⟩ more hmore hfresh
  exact ⟨kept, hkept, hkeptId.trans hid.symm, hcreated⟩

/-- When the shop closes on the day that it opened. -/
def closing : Stamp :=
  ⟨opening.id, ⟨28800, 0, by decide, Instant.zero_lt_nanos⟩⟩

/-- A stamp with another identifier at the same time. -/
def nextStamp : Stamp :=
  ⟨⟨2, Uuid.two_lt⟩, closing.time⟩

/-- In the evening the visitors of the shop are called guests, and all of them count. Then there is
room for new visitors. The fair deletes a segment with the same identifier, which it does not
have. -/
def shopEvening : List (String × Operation) :=
  [("shop", .updateSegment closing ⟨" guests ", none, []⟩),
    ("shop", .createSegment nextStamp ⟨"visitors", none, []⟩),
    ("fair", .deleteSegment opening.id)]

/-- In the evening the visitors of the shop have the identifier and the time of creation that they
got when the shop opened. -/
theorem visitors_kept :
    ((after shopSteps).snapshot "shop").segments.get? opening.id = some visitorsSegment ∧
      ("shop", .deleteSegment opening.id) ∉ shopEvening ∧
      FreshStamps shopEvening "shop" opening.id ∧
      ∃ kept, ((after (shopSteps ++ shopEvening)).snapshot "shop").segments.get? opening.id =
          some kept ∧ kept.id = opening.id ∧ kept.createdAt = opening.time := by
  have hheld : ((after shopSteps).snapshot "shop").segments.get? opening.id =
      some visitorsSegment := by
    rw [shop_eq]
    rfl
  have hevening : ("shop", Operation.deleteSegment opening.id) ∉ shopEvening := by
    simp [shopEvening]
  have hfresh : FreshStamps shopEvening "shop" opening.id := by
    intro stamp spec hin
    obtain ⟨rfl, -⟩ : stamp = nextStamp ∧ spec = ⟨"visitors", none, []⟩ := by
      simpa [shopEvening] using hin
    decide
  obtain ⟨-, hkept⟩ := identities_after shopSteps "shop"
  exact ⟨hheld, hevening, hfresh,
    hkept opening.id visitorsSegment hheld shopEvening hevening hfresh⟩

end Registry

end Cohort
