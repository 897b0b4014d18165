import Cohort.Proofs.Registry.Creation
import Cohort.Proofs.Registry.Frame
set_option relaxedAutoImplicit false
set_option autoImplicit false

/-!
# What new definitions add to a project

A new definition that is accepted is stored under its own name or identifier, where nothing was
before, and nothing else is stored or lost. For segments that takes identifiers that are not in use,
which the generator of identifiers gives and the registry does not check. So definitions that are
submitted one after the other, up to the first that is refused, leave a project with what it held
and with the definitions before that one. The refused one leaves the registry as it was: not even
its project becomes known by it, since a project without definitions accepts every definition that
is well formed.

## Main definitions

* `Cohort.Registry.Item` — a definition as a project holds it.
* `Cohort.Snapshot.item?` — what a project holds at an address.
* `Cohort.Snapshot.Gains` — a project with definitions added.
* `Cohort.Registry.Gains` — a registry in which new definitions were added to one project.

## Main results

* `Cohort.Snapshot.Gains.edits` — what one new definition adds.
* `Cohort.Registry.gains_performAll` — what new definitions add that are all accepted.
* `Cohort.Registry.performAll_stops` — where definitions stop that are not all accepted.
* `Cohort.Registry.perform_refused` — a new definition that is refused changes nothing.
-/

namespace Cohort

open Result

namespace Registry

/-- A definition as a project holds it. -/
inductive Item where
  | eventSchema (schema : EventSchema)
  | profileProperty (field : Field)
  | computedField (field : ComputedField)
  | segment (g : Segment)

namespace Item

/-- Where a definition is stored: under its name, or under its identifier. -/
def address : Item → Address
  | .eventSchema schema => .eventSchema schema.eventName
  | .profileProperty field => .profileProperty field.field
  | .computedField field => .computedField field.field
  | .segment g => .segment g.id

/-- What a definition is called. -/
def title : Item → Title
  | .eventSchema schema => .event schema.eventName
  | .profileProperty field => .field field.field
  | .computedField field => .field field.field
  | .segment g => .segment g.name

end Item

/-- A new definition as a project would hold it. -/
def Creation.item : Creation → Result Item
  | .eventSchema spec => (EventSchema.compile spec).map .eventSchema
  | .profileProperty spec => (Field.compile spec).map .profileProperty
  | .computedField spec => (ComputedField.compile spec).map .computedField
  | .segment stamp spec => (Segment.compile stamp.id stamp.time spec).map .segment

/-- A new segment has the identifier that it gets. -/
lemma Creation.id?_of_item {c : Creation} {g : Segment} (h : c.item = .ok (.segment g)) :
    c.id? = some g.id := by
  cases c with
  | segment stamp spec =>
    obtain ⟨made, hcompiled, hmade⟩ := map_eq_ok.1 h
    cases hmade
    obtain ⟨filters, -, -, rfl⟩ := Segment.compile_eq_ok.1 hcompiled
    rfl
  | eventSchema spec | profileProperty spec | computedField spec =>
    obtain ⟨_, -, hother⟩ := map_eq_ok.1 h
    cases hother

end Registry

open Registry

namespace Snapshot

/-- What a project holds at an address. -/
def item? (s : Snapshot) : Address → Option Item
  | .eventSchema name => (s.eventSchemas.get? name).map .eventSchema
  | .profileProperty name => (s.profileProperties.get? name).map .profileProperty
  | .computedField name => (s.computed.get? name).map .computedField
  | .segment id => (s.segments.get? id).map .segment

/-- A project with definitions added. It holds what it held and the new definitions, each of which
is called like none of the others and none of those before, and each was one change. -/
structure Gains (s t : Snapshot) (items : List Item) : Prop where
  /-- It is the same project. -/
  project : t.project = s.project
  /-- Each definition was one change. -/
  version : t.version = s.version + items.length
  /-- The project holds what it held and the new definitions, each at its own address. -/
  item?_eq_some : ∀ {a : Address} {item : Item},
    t.item? a = some item ↔ s.item? a = some item ∨ item ∈ items ∧ item.address = a
  /-- What the new definitions are called was free. -/
  untitled : ∀ item ∈ items, ¬ s.Titled item.title
  /-- No two of them are called the same. -/
  nodup_titles : (items.map Item.title).Nodup
  /-- The order of evaluation is still that of the computed fields. -/
  order : s.dependencyGraph.order = .ok s.evaluationOrder →
    t.dependencyGraph.order = .ok t.evaluationOrder

variable {s t u edited : Snapshot} {items more : List Item} {item : Item} {c : Creation}

/-! ### Titles -/

/-- The title of an event is taken if there is an event at its address. -/
lemma titled_event_iff {name : String} :
    s.Titled (.event name) ↔ ∃ item, s.item? (.eventSchema name) = some item := by
  rw [Titled, Index.contains_iff]
  simp [item?]

/-- The title of a field is taken if there is a computed field or a declared attribute at its
address. -/
lemma titled_field_iff {name : String} :
    s.Titled (.field name) ↔ (∃ item, s.item? (.computedField name) = some item) ∨
      ∃ item, s.item? (.profileProperty name) = some item := by
  rw [Titled, Index.contains_iff, Index.contains_iff]
  simp [item?]

/-- The title of a segment is taken if there is a segment of this name at some address. -/
lemma titled_segment_iff {name : String} :
    s.Titled (.segment name) ↔
      ∃ id g, s.item? (.segment id) = some (.segment g) ∧ g.name = name := by
  simp only [Titled, Index.mem_values, item?, Option.map_eq_some_iff, Item.segment.injEq,
    exists_eq_right]
  constructor
  · rintro ⟨g, ⟨id, hid⟩, hname⟩
    exact ⟨id, g, hid, hname⟩
  · rintro ⟨id, g, hid, hname⟩
    exact ⟨g, ⟨id, hid⟩, hname⟩

namespace Gains

/-- Without new definitions a project is what it was. -/
lemma refl (s : Snapshot) : s.Gains s [] where
  project := rfl
  version := rfl
  item?_eq_some := by simp
  untitled := by simp
  nodup_titles := List.nodup_nil
  order := id

/-- A title is taken then if it was before, or if a new definition has it.

**Proof sketch.** By the kind of the title. It is taken by an item at an address of this kind, which
was there before or is one of the new ones. -/
lemma titled_iff (h : s.Gains t items) {title : Title} :
    t.Titled title ↔ s.Titled title ∨ title ∈ items.map Item.title := by
  rw [List.mem_map]
  cases title with
  | event name =>
    simp only [titled_event_iff, h.item?_eq_some, exists_or]
    refine or_congr_right (exists_congr fun item => and_congr_right fun _ => ?_)
    cases item <;> simp [Item.address, Item.title]
  | field name =>
    simp only [titled_field_iff, h.item?_eq_some, exists_or, or_or_or_comm]
    refine or_congr_right ?_
    rw [← exists_or]
    refine exists_congr fun item => ?_
    rw [← and_or_left]
    refine and_congr_right fun _ => ?_
    cases item <;> simp [Item.address, Item.title]
  | segment name =>
    simp only [titled_segment_iff, h.item?_eq_some, or_and_right, exists_or]
    refine or_congr_right ⟨?_, ?_⟩
    · rintro ⟨id, g, ⟨hg, -⟩, rfl⟩
      exact ⟨_, hg, rfl⟩
    · rintro ⟨item, hitem, htitle⟩
      cases item with
      | segment g => exact ⟨g.id, g, ⟨hitem, rfl⟩, by simpa [Item.title] using htitle⟩
      | _ => cases htitle

/-- Definitions are added, and then others.

**Proof sketch.** What the first definitions are called is taken when the others are added, so no
title comes twice. -/
lemma trans (h : s.Gains t items) (h' : t.Gains u more) : s.Gains u (items ++ more) where
  project := h'.project.trans h.project
  version := by
    rw [h'.version, h.version, List.length_append]
    omega
  item?_eq_some := by
    intro a item
    rw [h'.item?_eq_some, h.item?_eq_some, List.mem_append, or_and_right, or_assoc]
  untitled := by
    intro item hitem htitled
    rcases List.mem_append.1 hitem with hitem | hitem
    · exact h.untitled item hitem htitled
    · exact h'.untitled item hitem (h.titled_iff.2 (.inl htitled))
  nodup_titles := by
    rw [List.map_append, List.nodup_append']
    refine ⟨h.nodup_titles, h'.nodup_titles, fun title hold hnew => ?_⟩
    obtain ⟨item, hitem, rfl⟩ := List.mem_map.1 hnew
    exact h'.untitled item hitem (h.titled_iff.2 (.inr hold))
  order := fun horder => h'.order (h.order horder)

end Gains

/-! ### One new definition -/

/-- Snapshots that agree on all definitions but one hold the same at all other addresses. -/
lemma Frame.item?_eq {a b : Address} (h : s.Frame a t) (hne : a ≠ b) : t.item? b = s.item? b := by
  cases b with
  | eventSchema name => rw [item?, item?, h.eventSchemas name hne]
  | profileProperty name => rw [item?, item?, h.profileProperties name hne]
  | computedField name => rw [item?, item?, h.computed name hne]
  | segment id => rw [item?, item?, h.segments id hne]

namespace Gains

/-- One definition is added where nothing was, and all others stay.

**Proof sketch.** At the address of the definition there is nothing before and the definition
afterwards; at all other addresses both snapshots agree. -/
lemma of_frame (hframe : s.Frame item.address t) (hversion : t.version = s.version + 1)
    (hfree : s.item? item.address = none) (hstored : t.item? item.address = some item)
    (huntitled : ¬ s.Titled item.title)
    (horder : s.dependencyGraph.order = .ok s.evaluationOrder →
      t.dependencyGraph.order = .ok t.evaluationOrder) : s.Gains t [item] where
  project := hframe.project
  version := hversion
  item?_eq_some := by
    intro a other
    by_cases ha : item.address = a
    · subst ha
      rw [hfree, hstored]
      constructor
      · rintro ⟨rfl⟩
        exact .inr ⟨List.mem_singleton_self _, rfl⟩
      · rintro (hother | ⟨hother, -⟩)
        · cases hother
        · rw [List.mem_singleton.1 hother]
    · rw [hframe.item?_eq ha]
      constructor
      · exact Or.inl
      · rintro (hother | ⟨hother, haddress⟩)
        · exact hother
        · rw [List.mem_singleton] at hother
          exact absurd (hother ▸ haddress) ha
  untitled := by simpa using huntitled
  nodup_titles := List.nodup_singleton _
  order := horder

/-- A new definition that is accepted is added to what the project holds, unless it is a segment
with an identifier in use.

**Proof sketch.** By the kind of the definition. Its edit puts it at its own address and changes
nothing else (`Edits.frame`), the address was free, and its title was not taken. For a segment the
address is its identifier. -/
lemma edits (hedit : Edits s c.operation edited)
    (hfresh : ∀ id ∈ c.id?, ¬ s.segments.contains id) :
    ∃ item, c.item = .ok item ∧ s.Gains { edited with version := s.version + 1 } [item] := by
  have hframe := hedit.frame
  cases c with
  | eventSchema spec =>
    cases hedit with
    | @createEventSchema _ schema compiled free =>
      have haddress : (Item.eventSchema schema).address =
          (Creation.eventSchema spec).operation.address :=
        congrArg _ (EventSchema.compile_eq_ok compiled).1
      refine ⟨.eventSchema schema, by simp [Creation.item, compiled], ?_⟩
      refine of_frame { haddress ▸ hframe with } rfl ?_ ?_ ?_ id
      · simpa [item?, Item.address, Index.contains] using free
      · simp [item?, Item.address]
      · exact free
  | profileProperty spec =>
    cases hedit with
    | @createProfileProperty _ field compiled free =>
      have haddress : (Item.profileProperty field).address =
          (Creation.profileProperty spec).operation.address :=
        congrArg _ (Field.compile_eq_ok compiled).1
      obtain ⟨hcomputed, hraw⟩ := checkAttributeFree_eq_ok.1 free
      refine ⟨.profileProperty field, by simp [Creation.item, compiled], ?_⟩
      refine of_frame { haddress ▸ hframe with } rfl ?_ ?_ ?_ id
      · simpa [item?, Item.address, Index.contains] using hraw
      · simp [item?, Item.address]
      · exact not_or.2 ⟨hcomputed, hraw⟩
  | computedField spec =>
    cases hedit with
    | @createComputedField _ f _ compiled free ordered =>
      obtain ⟨order, horder, rfl⟩ := reordered_eq_ok.1 ordered
      have haddress : (Item.computedField f).address =
          (Creation.computedField spec).operation.address :=
        congrArg _ (ComputedField.compile_eq_ok compiled).1
      obtain ⟨hcomputed, hraw⟩ := checkAttributeFree_eq_ok.1 free
      refine ⟨.computedField f, by simp [Creation.item, compiled], ?_⟩
      refine of_frame { haddress ▸ hframe with } rfl ?_ ?_ ?_ (fun _ => horder)
      · simpa [item?, Item.address, Index.contains] using hcomputed
      · simp [item?, Item.address]
      · exact not_or.2 ⟨hcomputed, hraw⟩
  | segment stamp spec =>
    cases hedit with
    | @createSegment _ _ g compiled free =>
      have haddress : (Item.segment g).address =
          (Creation.segment stamp spec).operation.address := by
        obtain ⟨filters, -, -, rfl⟩ := Segment.compile_eq_ok.1 compiled
        rfl
      refine ⟨.segment g, by simp [Creation.item, compiled], ?_⟩
      refine of_frame { haddress ▸ hframe with } rfl ?_ ?_ ?_ id
      · obtain ⟨filters, -, -, rfl⟩ := Segment.compile_eq_ok.1 compiled
        simpa [item?, Item.address, Index.contains] using hfresh stamp.id rfl
      · simp [item?, Item.address]
      · rintro ⟨held, hheld, hname⟩
        cases checkSegmentFree_eq_ok.1 free held hheld hname

/-- The identifiers in use then were in use before or belong to new segments. -/
lemma contains_segment (h : s.Gains t items) {cs : List Creation}
    (hitems : cs.map Creation.item = items.map Except.ok) {id : Uuid}
    (hid : t.segments.contains id) :
    s.segments.contains id ∨ id ∈ cs.filterMap Creation.id? := by
  obtain ⟨g, hg⟩ := Index.contains_iff.1 hid
  have hitem : t.item? (.segment id) = some (.segment g) := by rw [item?, hg, Option.map_some]
  rcases h.item?_eq_some.1 hitem with hold | ⟨hnew, haddress⟩
  · refine .inl (Index.contains_iff.2 ⟨g, ?_⟩)
    simpa [item?] using hold
  · have hmem : Except.ok (.segment g) ∈ cs.map Creation.item :=
      hitems ▸ List.mem_map_of_mem hnew
    obtain ⟨c, hc, hcitem⟩ := List.mem_map.1 hmem
    obtain rfl : g.id = id := Address.segment.inj haddress
    exact .inr (List.mem_filterMap.2 ⟨c, hc, Creation.id?_of_item hcitem⟩)

/-- A new segment is the one with its name.

**Proof sketch.** A segment with its name was not there before, since the new definitions have
titles of their own, and their titles differ from one another. -/
lemma segmentNamed?_eq (h : s.Gains t items) {g : Segment} (hg : .segment g ∈ items) :
    t.segmentNamed? g.name = some g := by
  have hheld : t.item? (.segment g.id) = some (.segment g) := h.item?_eq_some.2 (.inr ⟨hg, rfl⟩)
  have hunique : ∀ g' ∈ t.segments.values, g'.name = g.name → g' = g := by
    intro g' hg' hname
    obtain ⟨id, hid⟩ := Index.mem_values.1 hg'
    have hitem : t.item? (.segment id) = some (.segment g') := by rw [item?, hid, Option.map_some]
    rcases h.item?_eq_some.1 hitem with hold | ⟨hnew, -⟩
    · exact absurd (titled_segment_iff.2 ⟨id, g', hold, hname⟩) (h.untitled _ hg)
    · have htitle : (Item.segment g').title = (Item.segment g).title := by
        simp only [Item.title, hname]
      exact Item.segment.inj (List.inj_on_of_nodup_map h.nodup_titles hnew hg htitle)
  have hmem : g ∈ t.segments.values :=
    Index.mem_values.2 ⟨g.id, by simpa [item?] using hheld⟩
  exact segmentNamed?_eq_some hmem hunique

end Gains

end Snapshot

namespace Registry

variable {r : Registry} {project : String} {cs : List Creation} {c : Creation} {e : Error}

/-- A registry in which one project gained what new definitions say. -/
structure Gains (r next : Registry) (project : String) (cs : List Creation) : Prop where
  /-- The other projects are as they were. -/
  others : ∀ other, other ≠ project → next.snapshot other = r.snapshot other
  /-- The project gained all of the definitions. -/
  project : ∃ items, cs.map Creation.item = items.map Except.ok ∧
    (r.snapshot project).Gains (next.snapshot project) items

/-- New definitions that are all accepted are added to what their project holds, if the segments
get identifiers that are not in use and differ from one another.

**Proof sketch.** Induction on the definitions from the last one, which is added to what the others
left. If it is a segment its identifier is not in use then either, since those in use were so before
or are those of the others. -/
theorem gains_performAll (hids : (cs.filterMap Creation.id?).Nodup)
    (hunused : ∀ id ∈ cs.filterMap Creation.id?, ¬ (r.snapshot project).segments.contains id)
    (h : (r.performAll project (cs.map Creation.operation)).1 = .ok ()) :
    r.Gains (r.performAll project (cs.map Creation.operation)).2 project cs := by
  refine ⟨fun other hne => snapshot_performAll_of_ne r hne.symm _, ?_⟩
  induction cs using List.reverseRecOn with
  | nil => exact ⟨[], rfl, .refl _⟩
  | append_singleton cs c ih =>
    rw [List.map_append, List.map_singleton] at h
    obtain ⟨hbefore, hlast⟩ := performAll_concat_eq_ok.1 h
    obtain ⟨hids, hnew⟩ := nodup_ids_concat.1 hids
    simp only [List.filterMap_append, List.mem_append, or_imp, forall_and] at hunused
    obtain ⟨hunused, hlastUnused⟩ := hunused
    obtain ⟨items, hitems, hgains⟩ := ih hids hunused hbefore
    obtain ⟨edited, hedit, hnext⟩ := exists_edits_of_perform hlast
    obtain ⟨item, hitem, hgain⟩ := Snapshot.Gains.edits hedit fun id hid hin => by
      rcases hgains.contains_segment hitems hin with hold | hold
      · exact hlastUnused id (by simp [Option.mem_def.1 hid]) hold
      · exact hnew id hid hold
    refine ⟨items ++ [item], by simp [hitems, hitem], ?_⟩
    rw [List.map_append, List.map_singleton, performAll_concat_snd hbefore, hnext, if_pos rfl]
    exact hgains.trans hgain

/-! ### Definitions that are refused -/

/-- A project without definitions accepts every definition that is well formed.

**Proof sketch.** The empty snapshot consists of no definitions, none has the title, and a computed
field does not read itself. -/
lemma exists_edits_empty {d : Definition} (h : c.compile = .ok d) :
    ∃ edited, Edits (.empty project) c.operation edited := by
  refine ((Snapshot.consists_empty project).edits_iff .nil).2 ⟨d, ?_⟩
  refine Acceptable.concat_iff.2 ⟨.nil, h, List.not_mem_nil, ?_⟩
  refine ⟨fun _ => 0, fun f g hf hg hread => ?_⟩
  simp only [List.nil_append, List.mem_singleton] at hf hg
  cases c with
  | computedField spec =>
    rw [Creation.compile] at h
    obtain ⟨field, hcompiled, rfl⟩ := map_eq_ok.1 h
    cases hf
    cases hg
    exact absurd hread (ComputedField.compile_eq_ok hcompiled).2.2
  | eventSchema spec | profileProperty spec | segment stamp spec =>
    rw [Creation.compile] at h
    obtain ⟨_, -, rfl⟩ := map_eq_ok.1 h
    cases hf

/-- So a well-formed definition is refused only in a project that is known.

**Proof sketch.** In an unknown project there are no definitions, so a well-formed one is accepted
(`exists_edits_empty`). -/
lemma exists_get?_of_refused {d : Definition} (hd : c.compile = .ok d)
    (h : (r.perform project c.operation).1 = .error e) :
    ∃ held, r.projects.get? project = some held := by
  by_contra hunknown
  have hnone : r.projects.get? project = none :=
    Option.eq_none_iff_forall_not_mem.2 fun held hheld => hunknown ⟨held, hheld⟩
  have hsnapshot : r.snapshot project = .empty project := by rw [snapshot, hnone, Option.getD_none]
  obtain ⟨edited, hedit⟩ : ∃ edited, Edits (.empty project) c.operation edited :=
    exists_edits_empty hd
  rw [← hsnapshot] at hedit
  rw [perform_of_edits hedit] at h
  cases h

/-- A definition that is refused in a known project, or because it is not well formed, changes
nothing. -/
lemma submit_refused {α β : Type} {definition : Result α}
    {edit : α → Snapshot → Result (β × Snapshot)}
    (hknown : ∀ a, definition = .ok a → ∃ held, r.projects.get? project = some held)
    (h : (r.submit project definition edit).discard.1 = .error e) :
    (r.submit project definition edit).discard.2 = r := by
  cases hdefinition : definition with
  | error e => rfl
  | ok a =>
    obtain ⟨held, hheld⟩ := hknown a hdefinition
    have hsnapshot : r.snapshot project = held := by rw [snapshot, hheld, Option.getD_some]
    rw [hdefinition] at h
    simp only [Outcome.discard, submit, change, hsnapshot] at h ⊢
    cases hedit : edit a held with
    | ok made =>
      rw [hedit] at h
      cases h
    | error e => simp only [Index.insert_of_get? hheld]

/-- A new definition that is refused leaves the registry as it was.

**Proof sketch.** Before it is stored a definition is compiled, and only a project that is known
refuses one that compiles. So the registry has no project to add, and its snapshot stays. -/
lemma perform_refused (h : (r.perform project c.operation).1 = .error e) :
    (r.perform project c.operation).2 = r := by
  have hknown : ∀ d, c.compile = .ok d → ∃ held, r.projects.get? project = some held :=
    fun d hd => exists_get?_of_refused hd h
  cases c with
  | eventSchema spec =>
    rw [Creation.compile] at hknown
    exact submit_refused (fun schema hschema => hknown _ (map_eq_ok.2 ⟨schema, hschema, rfl⟩)) h
  | profileProperty spec =>
    rw [Creation.compile] at hknown
    exact submit_refused (fun field hfield => hknown _ (map_eq_ok.2 ⟨field, hfield, rfl⟩)) h
  | computedField spec =>
    rw [Creation.compile] at hknown
    exact submit_refused (fun field hfield => hknown _ (map_eq_ok.2 ⟨field, hfield, rfl⟩)) h
  | segment stamp spec =>
    rw [Creation.compile] at hknown
    exact submit_refused (fun g hg => hknown _ (map_eq_ok.2 ⟨g, hg, rfl⟩)) h

/-- New definitions are refused with the error of the first one that is refused on what those before
it left, and leave the registry as these left it.

**Proof sketch.** Induction on the definitions. The first one is refused, and leaves the registry as
it was, or it is accepted, and the others go on from what it leaves. -/
theorem performAll_stops (h : (r.performAll project (cs.map Creation.operation)).1 = .error e) :
    ∃ before c rest, cs = before ++ c :: rest ∧
      (r.performAll project (before.map Creation.operation)).1 = .ok () ∧
      ((r.performAll project (before.map Creation.operation)).2.perform project
        c.operation).1 = .error e ∧
      (r.performAll project (cs.map Creation.operation)).2 =
        (r.performAll project (before.map Creation.operation)).2 := by
  induction cs generalizing r with
  | nil => cases h
  | cons c cs ih =>
    rw [List.map_cons, performAll] at h ⊢
    cases hperform : r.perform project c.operation with
    | mk answer next =>
      rw [hperform] at h
      cases answer with
      | error e =>
        cases h
        have herror : (r.perform project c.operation).1 = .error e := by rw [hperform]
        refine ⟨[], c, cs, rfl, rfl, herror, ?_⟩
        have hkept := perform_refused herror
        rw [hperform] at hkept
        exact hkept
      | ok =>
        have hcons : ∀ ops, r.performAll project (c.operation :: ops) =
            next.performAll project ops := fun ops => by rw [performAll, hperform]
        obtain ⟨before, refused, rest, rfl, hbefore, herror, hkept⟩ := ih h
        refine ⟨c :: before, refused, rest, rfl, ?_⟩
        rw [List.map_cons, hcons]
        exact ⟨hbefore, herror, hkept⟩

end Registry

end Cohort
