import Cohort.Proofs.Registry.Acceptance
import Cohort.Proofs.Registry.Identity
set_option relaxedAutoImplicit false
set_option autoImplicit false

/-!
# New definitions in any order

A project that is built of new definitions only does not remember their order. Definitions whose
segments get different identifiers are all accepted if and only if each is well formed, no two have
the same title, and the computed fields do not read one another in a cycle; and what the project
then holds are these definitions. None of that depends on the order, and what the segments say does
not depend on the identifiers and times that they get.

That segments get different identifiers is up to the generator of identifiers and is a hypothesis
here: the registry replaces a segment whose identifier is given out again.

## Main definitions

* `Cohort.Registry.Creation` — a new definition, as it is submitted.
* `Cohort.Registry.Definition` — what it says.
* `Cohort.Registry.Acceptable` — new definitions that can be in one project.
* `Cohort.Snapshot.Consists` — the snapshot that consists of given definitions.
* `Cohort.Snapshot.Matches` — equality up to the identifiers and times of segments.

## Main results

* `Cohort.Registry.performAll_eq_ok` — new definitions are accepted if and only if they can be in
  one project.
* `Cohort.Registry.consists_performAll` — the snapshot then consists of them.
* `Cohort.Registry.performAll_reordered` — their order does not matter.
-/

namespace Cohort

open Result

/-! ### Definitions without identifiers and times -/

/-- A segment but for its identifier and its times. -/
structure Segment.Content where
  /-- The name. -/
  name : String
  /-- What people should know about it. -/
  description : Option String
  /-- The conditions that every member meets. -/
  filters : List Filter

/-- What a segment says. -/
def Segment.content (g : Segment) : Content :=
  ⟨g.name, g.description, g.filters⟩

/-- What a segment says does not depend on its identifier, nor on when it is submitted. -/
lemma Segment.map_content_compile (id other : Uuid) (now later : Instant) (spec : Spec) :
    (compile id now spec).map content = (compile other later spec).map content := by
  unfold compile
  cases readName "name" spec.name with
  | error e => rfl
  | ok name =>
    cases spec.filters.mapM Filter.compile with
    | error e => rfl
    | ok filters => rfl

namespace Registry

/-- What a definition says. -/
inductive Definition where
  | eventSchema (schema : EventSchema)
  | profileProperty (field : Field)
  | computedField (field : ComputedField)
  | segment (content : Segment.Content)

/-- What only one definition of a project can be called. Computed fields and declared ones share
their names. -/
inductive Title where
  | event (name : String)
  | field (name : String)
  | segment (name : String)

/-- What a definition is called. -/
def Definition.title : Definition → Title
  | .eventSchema schema => .event schema.eventName
  | .profileProperty field => .field field.field
  | .computedField field => .field field.field
  | .segment content => .segment content.name

/-- What a definition says if it is a segment. -/
def Definition.content? : Definition → Option Segment.Content
  | .segment content => some content
  | _ => none

/-- The contents of segments among definitions are those of the segments that are defined. -/
lemma mem_filterMap_content? {content : Segment.Content} {ds : List Definition} :
    content ∈ ds.filterMap Definition.content? ↔ .segment content ∈ ds := by
  rw [List.mem_filterMap]
  constructor
  · rintro ⟨d, hd, hcontent⟩
    cases d with
    | segment held => exact Option.some.inj hcontent ▸ hd
    | _ => cases hcontent
  · intro h
    exact ⟨_, h, rfl⟩

/-- A new definition, as it is submitted. A segment comes with the identifier and the time that it
gets. -/
inductive Creation where
  | eventSchema (spec : EventSchema.Spec)
  | profileProperty (spec : Field.Spec)
  | computedField (spec : ComputedField.Spec)
  | segment (stamp : Stamp) (spec : Segment.Spec)

namespace Creation

/-- The operation that submits a new definition. -/
def operation : Creation → Operation
  | .eventSchema spec => .createEventSchema spec
  | .profileProperty spec => .createProfileProperty spec
  | .computedField spec => .createComputedField spec
  | .segment stamp spec => .createSegment stamp spec

/-- What a new definition says. -/
def compile : Creation → Result Definition
  | .eventSchema spec => (EventSchema.compile spec).map .eventSchema
  | .profileProperty spec => (Field.compile spec).map .profileProperty
  | .computedField spec => (ComputedField.compile spec).map .computedField
  | .segment stamp spec =>
    (Segment.compile stamp.id stamp.time spec).map fun g => .segment g.content

/-- What a new segment says does not depend on its identifier, nor on when it is submitted. -/
lemma compile_segment (stamp other : Stamp) (spec : Segment.Spec) :
    (segment stamp spec).compile = (segment other spec).compile := by
  have hmap : ∀ definition : Result Segment,
      definition.map (fun g => Definition.segment g.content) =
        (definition.map Segment.content).map .segment := fun definition => by
    cases definition <;> rfl
  rw [compile, compile, hmap, hmap, Segment.map_content_compile]

/-- The identifier that a new definition gets if it is a segment. -/
def id? : Creation → Option Uuid
  | .segment stamp _ => some stamp.id
  | _ => none

end Creation

/-! ### Definitions that can be in one project -/

/-- Fields that read one another only down to lower ranks. -/
def Ranked (p : ComputedField → Prop) : Prop :=
  ∃ rank : String → Nat, ∀ f g, p f → p g → g.field ∈ f.references → rank g.field < rank f.field

/-- New definitions that say something, and that can be in one project. -/
structure Acceptable (cs : List Creation) (ds : List Definition) : Prop where
  /-- Each is well formed. -/
  compiled : cs.map Creation.compile = ds.map Except.ok
  /-- No two are called the same. -/
  titles : (ds.map Definition.title).Nodup
  /-- Computed fields do not read one another in a cycle. -/
  ranked : Ranked fun f => .computedField f ∈ ds

/-- Some of the fields that are ranked are ranked. -/
lemma Ranked.mono {p q : ComputedField → Prop} (h : Ranked q) (hpq : ∀ f, p f → q f) :
    Ranked p := by
  obtain ⟨rank, hrank⟩ := h
  exact ⟨rank, fun f g hf hg hread => hrank f g (hpq f hf) (hpq g hg) hread⟩

namespace Acceptable

variable {cs : List Creation} {ds : List Definition} {c : Creation} {d : Definition}

/-- No definitions at all can be in one project. -/
lemma nil : Acceptable [] [] where
  compiled := rfl
  titles := List.nodup_nil
  ranked := ⟨fun _ => 0, fun _ _ hf => nomatch hf⟩

/-- One more definition is acceptable if it is well formed and is called like none of the others.

**Proof sketch.** The conditions on the longer lists are those on the shorter ones and one on the
new definition. -/
lemma concat_iff :
    Acceptable (cs ++ [c]) (ds ++ [d]) ↔
      Acceptable cs ds ∧ c.compile = .ok d ∧ d.title ∉ ds.map Definition.title ∧
        Ranked fun f => .computedField f ∈ ds ++ [d] := by
  have hcompiled : (cs ++ [c]).map Creation.compile = (ds ++ [d]).map Except.ok ↔
      cs.map Creation.compile = ds.map Except.ok ∧ c.compile = .ok d := by
    rw [List.map_append, List.map_append, List.map_singleton, List.map_singleton,
      List.append_singleton_inj]
  have htitles : ((ds ++ [d]).map Definition.title).Nodup ↔
      d.title ∉ ds.map Definition.title ∧ (ds.map Definition.title).Nodup := by
    rw [List.map_append, List.map_singleton, (List.perm_append_singleton _ _).nodup_iff,
      List.nodup_cons]
  constructor
  · rintro ⟨hcs, hds, hranked⟩
    obtain ⟨hcs, hc⟩ := hcompiled.1 hcs
    obtain ⟨htitle, hds⟩ := htitles.1 hds
    exact ⟨⟨hcs, hds, hranked.mono fun f hf => List.mem_append_left _ hf⟩, hc, htitle, hranked⟩
  · rintro ⟨h, hc, htitle, hranked⟩
    exact ⟨hcompiled.2 ⟨h.compiled, hc⟩, htitles.2 ⟨htitle, h.titles⟩, hranked⟩

/-- What new definitions say is determined by them. -/
lemma unique {es : List Definition} (hds : Acceptable cs ds) (hes : Acceptable cs es) :
    ds = es := by
  have h := hds.compiled.symm.trans hes.compiled
  exact (List.map_injective_iff.2 fun _ _ => Except.ok.inj) h

/-- What new definitions say ends with what the last one says. -/
lemma exists_concat {es : List Definition} (h : Acceptable (cs ++ [c]) es) :
    ∃ ds d, es = ds ++ [d] := by
  refine ⟨es.dropLast, es.getLast ?_, (List.dropLast_append_getLast _).symm⟩
  rintro rfl
  simpa using h.compiled

/-- Definitions that say the same in another order are acceptable as well.

**Proof sketch.** What the definitions say is carried along with them to the other order, and titles
and ranks do not depend on the order. -/
lemma reordered {others : List Creation} (h : Acceptable cs ds)
    (hperm : (cs.map Creation.compile).Perm (others.map Creation.compile)) :
    ∃ es, ds.Perm es ∧ Acceptable others es := by
  -- An equality of lists does not survive a permutation of one side; a relation of their elements
  -- is carried along.
  have hds : List.Forall₂ (fun x d => x = Except.ok d) (cs.map Creation.compile) ds := by
    rw [h.compiled, List.forall₂_map_left_iff]
    exact List.forall₂_same.2 fun _ _ => rfl
  obtain ⟨es, hes, hde⟩ := List.perm_comp_forall₂ hperm.symm hds
  have hperm : ds.Perm es := hde.symm
  refine ⟨es, hperm, ?_, ?_, h.ranked.mono fun f hf => hperm.mem_iff.2 hf⟩
  · rwa [← List.forall₂_eq_eq_eq, List.forall₂_map_right_iff]
  · exact (hperm.map _).nodup_iff.1 h.titles

end Acceptable

end Registry

/-! ### Snapshots of given definitions -/

namespace Snapshot

open Registry

/-- A title is taken in a snapshot. -/
def Titled (s : Snapshot) : Title → Prop
  | .event name => s.eventSchemas.contains name
  | .field name => s.computed.contains name ∨ s.profileProperties.contains name
  | .segment name => ∃ segment ∈ s.segments.values, segment.name = name

/-- The snapshot that consists of given definitions. -/
structure Consists (s : Snapshot) (cs : List Creation) (ds : List Definition) : Prop where
  /-- The events are those of the definitions. -/
  eventSchemas : s.eventSchemas.Lists EventSchema.eventName (.eventSchema · ∈ ds)
  /-- So are the declared attributes. -/
  profileProperties : s.profileProperties.Lists Field.field (.profileProperty · ∈ ds)
  /-- So are the computed fields. -/
  computed : s.computed.Lists ComputedField.field (.computedField · ∈ ds)
  /-- So is what the segments say. -/
  segments : (s.segments.values.map Segment.content).Perm (ds.filterMap Definition.content?)
  /-- Segments have the identifiers that they got. -/
  ids : ∀ id, s.segments.contains id ↔ id ∈ cs.filterMap Creation.id?
  /-- Each definition was one change. -/
  version : s.version = ds.length

variable {s edited : Snapshot} {cs : List Creation} {ds : List Definition} {c : Creation}
  {d : Definition}

/-- The empty snapshot consists of no definitions. -/
lemma consists_empty (project : String) : (empty project).Consists [] [] where
  eventSchemas := .empty (by simp)
  profileProperties := .empty (by simp)
  computed := .empty (by simp)
  segments := .refl _
  ids := by simp [empty, Index.contains]
  version := rfl

/-- The titles that are taken are those of the definitions.

**Proof sketch.** By the kind of the title: each kind has its own index, which lists the definitions
of this kind. -/
lemma Consists.titled_iff (h : s.Consists cs ds) {t : Title} :
    s.Titled t ↔ t ∈ ds.map Definition.title := by
  rw [List.mem_map]
  cases t with
  | event name =>
    rw [Titled, h.eventSchemas.contains_iff]
    constructor
    · rintro ⟨schema, hschema, rfl⟩
      exact ⟨_, hschema, rfl⟩
    · rintro ⟨d, hd, htitle⟩
      cases d <;> cases htitle
      exact ⟨_, hd, rfl⟩
  | field name =>
    rw [Titled, h.computed.contains_iff, h.profileProperties.contains_iff]
    constructor
    · rintro (⟨f, hf, rfl⟩ | ⟨field, hfield, rfl⟩)
      · exact ⟨_, hf, rfl⟩
      · exact ⟨_, hfield, rfl⟩
    · rintro ⟨d, hd, htitle⟩
      cases d <;> cases htitle
      · exact .inr ⟨_, hd, rfl⟩
      · exact .inl ⟨_, hd, rfl⟩
  | segment name =>
    have hcontent : ∀ content, (∃ g ∈ s.segments.values, g.content = content) ↔
        .segment content ∈ ds := fun content => by
      rw [← List.mem_map, h.segments.mem_iff, mem_filterMap_content?]
    constructor
    · rintro ⟨g, hg, rfl⟩
      exact ⟨_, (hcontent g.content).1 ⟨g, hg, rfl⟩, rfl⟩
    · rintro ⟨d, hd, htitle⟩
      cases d <;> cases htitle
      obtain ⟨g, hg, rfl⟩ := (hcontent _).2 hd
      exact ⟨g, hg, rfl⟩

/-- An index of computed fields under their own names has an order of evaluation if and only if they
read one another only down to lower ranks.

**Proof sketch.** The place in an order is a rank. A rank that goes down along what is read rules a
cycle out. -/
lemma exists_reordered_iff {p : ComputedField → Prop}
    (h : s.computed.Lists ComputedField.field p) :
    (∃ next, s.reordered = .ok next) ↔ Ranked p := by
  have hnamed : s.Named := fun name f hf => ((h name f).1 hf).2
  constructor
  · rintro ⟨next, hnext⟩
    have hordered : next.Ordered := ordered_of_reordered hnamed hnext
    obtain ⟨order, -, rfl⟩ := reordered_eq_ok.1 hnext
    -- The place in the order is a rank.
    refine ⟨rank _, fun f g hf hg hread => hordered.rank_lt ((h _ f).2 ⟨hf, rfl⟩) _ hread ?_⟩
    exact h.contains_iff.2 ⟨g, hg, rfl⟩
  · rintro ⟨rank, hrank⟩
    refine hnamed.exists_reordered rank fun name f hf read hread hfield => ?_
    obtain ⟨hlisted, rfl⟩ := (h name f).1 hf
    obtain ⟨g, hg, rfl⟩ := h.contains_iff.1 hfield
    exact hrank f g hlisted hg hread

/-- A new definition is accepted if and only if it is well formed, is called like no other, and
leaves the computed fields an order of evaluation.

**Proof sketch.** By the kind of the definition. What its edit asks for is that it compiles, that
its title is free and, for a computed field, that there is an order afterwards. -/
lemma exists_edits_iff :
    (∃ edited, Edits s c.operation edited) ↔
      ∃ d, c.compile = .ok d ∧ ¬ s.Titled d.title ∧
        ∀ f, d = .computedField f →
          ∃ next, { s with computed := s.computed.insert f.field f }.reordered = .ok next := by
  cases c with
  | eventSchema spec =>
    simp only [Creation.compile, map_eq_ok]
    constructor
    · rintro ⟨edited, hedit⟩
      cases hedit with
      | createEventSchema compiled free =>
        exact ⟨_, ⟨_, compiled, rfl⟩, free, fun f hf => by cases hf⟩
    · rintro ⟨d, ⟨schema, compiled, rfl⟩, htitle, -⟩
      exact ⟨_, .createEventSchema compiled htitle⟩
  | profileProperty spec =>
    simp only [Creation.compile, map_eq_ok]
    constructor
    · rintro ⟨edited, hedit⟩
      cases hedit with
      | createProfileProperty compiled free =>
        have htitle := not_or.2 (checkAttributeFree_eq_ok.1 free)
        exact ⟨_, ⟨_, compiled, rfl⟩, htitle, fun f hf => by cases hf⟩
    · rintro ⟨d, ⟨field, compiled, rfl⟩, htitle, -⟩
      exact ⟨_, .createProfileProperty compiled (checkAttributeFree_eq_ok.2 (not_or.1 htitle))⟩
  | computedField spec =>
    simp only [Creation.compile, map_eq_ok]
    constructor
    · rintro ⟨edited, hedit⟩
      cases hedit with
      | createComputedField compiled free ordered =>
        have htitle := not_or.2 (checkAttributeFree_eq_ok.1 free)
        refine ⟨_, ⟨_, compiled, rfl⟩, htitle, ?_⟩
        rintro f ⟨rfl⟩
        exact ⟨_, ordered⟩
    · rintro ⟨d, ⟨f, compiled, rfl⟩, htitle, hordered⟩
      have hfree : s.checkAttributeFree f.field = .ok () :=
        checkAttributeFree_eq_ok.2 (not_or.1 htitle)
      obtain ⟨next, ordered⟩ := hordered f rfl
      exact ⟨_, .createComputedField compiled hfree ordered⟩
  | segment stamp spec =>
    simp only [Creation.compile, map_eq_ok]
    constructor
    · rintro ⟨edited, hedit⟩
      cases hedit with
      | createSegment compiled free =>
        refine ⟨_, ⟨_, compiled, rfl⟩, ?_, fun f hf => by cases hf⟩
        rintro ⟨held, hheld, hname⟩
        cases checkSegmentFree_eq_ok.1 free held hheld hname
    · rintro ⟨d, ⟨segment, compiled, rfl⟩, htitle, -⟩
      refine ⟨_, .createSegment compiled (checkSegmentFree_eq_ok.2 ?_)⟩
      intro held hheld hname
      exact absurd ⟨held, hheld, hname⟩ htitle

namespace Consists

variable (h : s.Consists cs ds)

include h

/-- A new computed field joins those that there are. -/
lemma insert_computed {f : ComputedField} (hfree : ¬ s.Titled (.field f.field)) :
    (s.computed.insert f.field f).Lists ComputedField.field
      (.computedField · ∈ ds ++ [.computedField f]) :=
  h.computed.insert (not_or.1 hfree).1 (by simp)

/-- A new definition is accepted if and only if it is acceptable beside those that there are. -/
lemma edits_iff (hds : Acceptable cs ds) :
    (∃ edited, Edits s c.operation edited) ↔ ∃ d, Acceptable (cs ++ [c]) (ds ++ [d]) := by
  rw [exists_edits_iff]
  refine exists_congr fun d => ?_
  rw [Acceptable.concat_iff, h.titled_iff]
  simp only [hds, true_and]
  refine and_congr_right fun _ => and_congr_right fun htitle => ?_
  cases d with
  | computedField f =>
    have hlists := h.insert_computed (f := f) (fun ht => htitle (h.titled_iff.1 ht))
    rw [← exists_reordered_iff (s := { s with computed := s.computed.insert f.field f }) hlists]
    simp
  | _ => simpa using hds.ranked

/-- A new definition that is no segment leaves what the segments say as it is. -/
lemma segments_concat (hd : d.content? = none) :
    (s.segments.values.map Segment.content).Perm
      ((ds ++ [d]).filterMap Definition.content?) := by
  rw [List.filterMap_append, List.filterMap_cons_none hd, List.filterMap_nil, List.append_nil]
  exact h.segments

/-- It leaves the segments their identifiers. -/
lemma ids_concat (hc : c.id? = none) (id : Uuid) :
    s.segments.contains id ↔ id ∈ (cs ++ [c]).filterMap Creation.id? := by
  rw [List.filterMap_append, List.filterMap_cons_none hc, List.filterMap_nil, List.append_nil]
  exact h.ids id

/-- A new definition counts as one change. -/
lemma version_concat (d : Definition) : s.version + 1 = (ds ++ [d]).length := by
  rw [h.version, List.length_append, List.length_singleton]

/-- A new definition that is accepted joins those that there are, if it does not get the identifier
of one of them.

**Proof sketch.** By the kind of the definition: it is inserted in the index of its kind, and the
others stay as they are. -/
lemma edits (hedit : Edits s c.operation edited) (hcompile : c.compile = .ok d)
    (hfresh : ∀ id ∈ c.id?, id ∉ cs.filterMap Creation.id?) :
    { edited with version := s.version + 1 }.Consists (cs ++ [c]) (ds ++ [d]) := by
  cases c with
  | eventSchema spec =>
    cases hedit with
    | @createEventSchema _ schema compiled free =>
      obtain rfl : .eventSchema schema = d := by simpa [Creation.compile, compiled] using hcompile
      exact {
        eventSchemas := h.eventSchemas.insert free (by simp)
        profileProperties := h.profileProperties.congr (by simp)
        computed := h.computed.congr (by simp)
        segments := h.segments_concat rfl
        ids := h.ids_concat rfl
        version := h.version_concat _ }
  | profileProperty spec =>
    cases hedit with
    | @createProfileProperty _ field compiled free =>
      obtain rfl : .profileProperty field = d := by
        simpa [Creation.compile, compiled] using hcompile
      have hraw := (checkAttributeFree_eq_ok.1 free).2
      exact {
        eventSchemas := h.eventSchemas.congr (by simp)
        profileProperties := h.profileProperties.insert hraw (by simp)
        computed := h.computed.congr (by simp)
        segments := h.segments_concat rfl
        ids := h.ids_concat rfl
        version := h.version_concat _ }
  | computedField spec =>
    cases hedit with
    | @createComputedField _ f _ compiled free ordered =>
      obtain rfl : .computedField f = d := by simpa [Creation.compile, compiled] using hcompile
      obtain ⟨order, -, rfl⟩ := reordered_eq_ok.1 ordered
      exact {
        eventSchemas := h.eventSchemas.congr (by simp)
        profileProperties := h.profileProperties.congr (by simp)
        computed := h.insert_computed (not_or.2 (checkAttributeFree_eq_ok.1 free))
        segments := h.segments_concat rfl
        ids := h.ids_concat rfl
        version := h.version_concat _ }
  | segment stamp spec =>
    cases hedit with
    | @createSegment _ _ segment compiled free =>
      obtain rfl : .segment segment.content = d := by
        simpa [Creation.compile, compiled] using hcompile
      obtain ⟨filters, -, -, rfl⟩ := Segment.compile_eq_ok.1 compiled
      -- without a fresh identifier the segment would replace another one
      have hunused : ¬ s.segments.contains stamp.id := fun hin =>
        hfresh stamp.id rfl ((h.ids stamp.id).1 hin)
      exact {
        eventSchemas := h.eventSchemas.congr (by simp)
        profileProperties := h.profileProperties.congr (by simp)
        computed := h.computed.congr (by simp)
        segments := by
          rw [List.filterMap_append]
          refine ((Index.perm_values_insert hunused).map Segment.content).trans ?_
          exact (h.segments.cons _).trans (List.perm_append_singleton _ _).symm
        ids := fun id => by
          rw [Index.contains_insert, h.ids, List.filterMap_append, List.mem_append, or_comm]
          simp [Creation.id?, eq_comm]
        version := h.version_concat _ }

end Consists

end Snapshot

namespace Registry

variable {project : String} {cs : List Creation} {ds : List Definition}

/-- The identifiers of new segments differ if and only if those of all but the last do, and that of
the last is none of them. -/
lemma nodup_ids_concat {c : Creation} :
    ((cs ++ [c]).filterMap Creation.id?).Nodup ↔
      (cs.filterMap Creation.id?).Nodup ∧ ∀ id ∈ c.id?, id ∉ cs.filterMap Creation.id? := by
  rw [List.filterMap_append]
  cases hc : c.id? with
  | none => simp [hc]
  | some id =>
    rw [List.filterMap_cons_some hc, List.filterMap_nil,
      (List.perm_append_singleton _ _).nodup_iff, List.nodup_cons, and_comm]
    simp

/-- New definitions that are accepted can be in one project, and the project consists of them.

**Proof sketch.** Induction on the definitions from the last one, which is accepted beside those
before it. Its identifier is none of theirs, so it replaces none of them. -/
lemma acceptable_of_performAll (hids : (cs.filterMap Creation.id?).Nodup)
    (h : (empty.performAll project (cs.map Creation.operation)).1 = .ok ()) :
    ∃ ds, Acceptable cs ds ∧
      ((empty.performAll project (cs.map Creation.operation)).2.snapshot project).Consists cs
        ds := by
  induction cs using List.reverseRecOn with
  | nil => exact ⟨[], .nil, Snapshot.consists_empty project⟩
  | append_singleton cs c ih =>
    rw [List.map_append, List.map_singleton] at h ⊢
    obtain ⟨hbefore, hlast⟩ := performAll_concat_eq_ok.1 h
    obtain ⟨hids, hfresh⟩ := nodup_ids_concat.1 hids
    obtain ⟨ds, hds, hconsists⟩ := ih hids hbefore
    obtain ⟨edited, hedit, hnext⟩ := exists_edits_of_perform hlast
    obtain ⟨d, hd⟩ := (hconsists.edits_iff hds).1 ⟨edited, hedit⟩
    refine ⟨ds ++ [d], hd, ?_⟩
    rw [performAll_concat_snd hbefore, hnext, if_pos rfl]
    exact hconsists.edits hedit (Acceptable.concat_iff.1 hd).2.1 hfresh

/-- New definitions that can be in one project are accepted.

**Proof sketch.** Induction on the definitions from the last one. Those before it can be in one
project as well, and the last one then is acceptable beside them. -/
lemma performAll_of_acceptable (hids : (cs.filterMap Creation.id?).Nodup) (h : Acceptable cs ds) :
    (empty.performAll project (cs.map Creation.operation)).1 = .ok () := by
  induction cs using List.reverseRecOn generalizing ds with
  | nil => rfl
  | append_singleton cs c ih =>
    obtain ⟨ds, d, rfl⟩ := h.exists_concat
    obtain ⟨hids, -⟩ := nodup_ids_concat.1 hids
    have hbefore := ih hids (Acceptable.concat_iff.1 h).1
    rw [List.map_append, List.map_singleton, performAll_concat_eq_ok, perform_eq_ok]
    -- The definitions before the last one are accepted, so it is known what the last one meets.
    obtain ⟨es, hes, hconsists⟩ := acceptable_of_performAll hids hbefore
    obtain rfl := hes.unique (Acceptable.concat_iff.1 h).1
    exact ⟨hbefore, (hconsists.edits_iff hes).2 ⟨d, h⟩⟩

/-- New definitions are accepted if and only if they can be in one project. -/
theorem performAll_eq_ok (hids : (cs.filterMap Creation.id?).Nodup) :
    (empty.performAll project (cs.map Creation.operation)).1 = .ok () ↔ ∃ ds, Acceptable cs ds := by
  constructor
  · intro h
    obtain ⟨ds, hds, -⟩ := acceptable_of_performAll hids h
    exact ⟨ds, hds⟩
  · rintro ⟨ds, hds⟩
    exact performAll_of_acceptable hids hds

/-- A project of new definitions that can be in one consists of them. -/
theorem consists_performAll (hids : (cs.filterMap Creation.id?).Nodup) (h : Acceptable cs ds) :
    ((empty.performAll project (cs.map Creation.operation)).2.snapshot project).Consists cs ds := by
  have haccepted : (empty.performAll project (cs.map Creation.operation)).1 = .ok () :=
    performAll_of_acceptable hids h
  obtain ⟨es, hes, hconsists⟩ := acceptable_of_performAll hids haccepted
  obtain rfl := hes.unique h
  exact hconsists

end Registry

/-! ### The order of definitions -/

namespace Snapshot

open Registry

/-- Equality of snapshots up to the identifiers and times of segments. -/
structure Matches (s t : Snapshot) : Prop where
  /-- Both were changed equally often. -/
  version : s.version = t.version
  /-- The events are equal. -/
  eventSchemas : s.eventSchemas = t.eventSchemas
  /-- The declared attributes are equal. -/
  profileProperties : s.profileProperties = t.profileProperties
  /-- The computed fields are equal. -/
  computed : s.computed = t.computed
  /-- So is the order in which they are evaluated. -/
  evaluationOrder : s.evaluationOrder = t.evaluationOrder
  /-- Segments say the same. -/
  segments : (s.segments.values.map Segment.content).Perm (t.segments.values.map Segment.content)

/-- A snapshot matches itself. -/
lemma Matches.refl (s : Snapshot) : s.Matches s :=
  ⟨rfl, rfl, rfl, rfl, rfl, .refl _⟩

/-- Snapshots of the same definitions match.

**Proof sketch.** Each index is determined by the definitions that it lists, and the order of
evaluation by the graph of the computed fields. -/
lemma Consists.matches {s t : Snapshot} {cs others : List Creation} {ds es : List Definition}
    (hs : s.Consists cs ds) (ht : t.Consists others es) (hperm : ds.Perm es)
    (hsorder : s.dependencyGraph.order = .ok s.evaluationOrder)
    (htorder : t.dependencyGraph.order = .ok t.evaluationOrder) : s.Matches t := by
  have hcomputed : s.computed = t.computed :=
    hs.computed.unique (ht.computed.congr fun f => hperm.mem_iff)
  have hgraph : s.dependencyGraph = t.dependencyGraph := by
    rw [dependencyGraph, dependencyGraph, hcomputed]
  have horder : s.evaluationOrder = t.evaluationOrder := by
    rw [hgraph, htorder] at hsorder
    exact (Except.ok.inj hsorder).symm
  have hsegments : (ds.filterMap Definition.content?).Perm (es.filterMap Definition.content?) :=
    hperm.filterMap _
  exact {
    version := by rw [hs.version, ht.version, hperm.length_eq]
    eventSchemas := hs.eventSchemas.unique (ht.eventSchemas.congr fun schema => hperm.mem_iff)
    profileProperties :=
      hs.profileProperties.unique (ht.profileProperties.congr fun field => hperm.mem_iff)
    computed := hcomputed
    evaluationOrder := horder
    segments := (hs.segments.trans hsegments).trans ht.segments.symm }

end Snapshot

namespace Registry

/-- Operations on a project leave the others as they were.

**Proof sketch.** Induction on the operations, each of which changes one project at most. -/
lemma snapshot_performAll_of_ne (r : Registry) {project other : String} (h : project ≠ other)
    (ops : List Operation) : (r.performAll project ops).2.snapshot other = r.snapshot other := by
  induction ops generalizing r with
  | nil => rfl
  | cons op ops ih =>
    have hled := perform_led r project op
    rw [performAll]
    generalize r.perform project op = outcome at hled
    cases hled with
    | refused kept => exact kept other
    | accepted made changed => exact (ih _).trans ((changed other).trans (if_neg h))

/-- New definitions that say the same are all accepted or not, in whatever order they are submitted
and whatever identifiers and times the segments get; and if they are, they lead to projects that
match.

**Proof sketch.** Whether definitions can be in one project depends only on which they are. -/
theorem performAll_reordered {project : String} {cs others : List Creation}
    (hperm : (cs.map Creation.compile).Perm (others.map Creation.compile))
    (hids : (cs.filterMap Creation.id?).Nodup) (hothers : (others.filterMap Creation.id?).Nodup) :
    ((empty.performAll project (cs.map Creation.operation)).1 = .ok () ↔
      (empty.performAll project (others.map Creation.operation)).1 = .ok ()) ∧
    ((empty.performAll project (cs.map Creation.operation)).1 = .ok () → ∀ other,
      ((empty.performAll project (cs.map Creation.operation)).2.snapshot other).Matches
        ((empty.performAll project (others.map Creation.operation)).2.snapshot other)) := by
  rw [performAll_eq_ok hids, performAll_eq_ok hothers]
  refine ⟨⟨?_, ?_⟩, ?_⟩
  · rintro ⟨ds, hds⟩
    obtain ⟨es, -, hes⟩ := hds.reordered hperm
    exact ⟨es, hes⟩
  · rintro ⟨es, hes⟩
    obtain ⟨ds, -, hds⟩ := hes.reordered hperm.symm
    exact ⟨ds, hds⟩
  · rintro ⟨ds, hds⟩ other
    obtain ⟨es, hde, hes⟩ := hds.reordered hperm
    by_cases hproject : project = other
    · subst hproject
      refine (consists_performAll hids hds).matches (consists_performAll hothers hes) hde ?_ ?_
      · rw [performAll_eq_after (performAll_of_acceptable hids hds)]
        exact order_after _ project
      · rw [performAll_eq_after (performAll_of_acceptable hothers hes)]
        exact order_after _ project
    · rw [snapshot_performAll_of_ne _ hproject, snapshot_performAll_of_ne _ hproject]
      exact .refl _

end Registry

end Cohort
