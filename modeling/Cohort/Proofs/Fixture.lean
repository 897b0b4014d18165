import Cohort.Fixture
import Cohort.Proofs.Registry.Creation
set_option relaxedAutoImplicit false
set_option autoImplicit false

/-!
# Fixtures in any order

Loading a fixture submits its definitions one after the other. The order in which the fixture lists
events, attributes, computed fields and segments does not matter: the fixture is loaded in one order
if and only if it is in the other, and leads to the same project, up to the identifiers and times
that the segments get.

## Main definitions

* `Cohort.Registry.Changes.Performs` — the operations that changes make.
* `Cohort.Fixture.creations` — the definitions of a fixture in the order in which they are
  submitted.
* `Cohort.Fixture.Reordered` — a fixture that lists the same in another order.

## Main results

* `Cohort.Fixture.performs_define` — submitting a fixture is performing the operations that submit
  its definitions.
* `Cohort.Fixture.load_reordered` — the order in a fixture does not matter.
-/

namespace Cohort

open Registry

namespace Registry.Changes

variable {project : String} {α β : Type}

/-! ### Changes that perform operations -/

/-- The second of two changes in a row is made only if the first is accepted. -/
lemma bind_apply (x : Changes α) (k : α → Changes β) (r : Registry) :
    (x >>= k) r =
      match x r with
      | (.ok a, next) => k a next
      | (.error e, next) => (.error e, next) := by
  show ExceptT.bindCont k (x r).1 (x r).2 = _
  rcases x r with ⟨_ | a, next⟩
  · rfl
  · rfl

/-- But for what they answer, changes are those that operations make on a project. -/
def Performs (x : Changes α) (project : String) (ops : List Operation) : Prop :=
  ∀ r, Outcome.discard (x r) = r.performAll project ops

namespace Performs

variable {x : Changes α} {k : α → Changes β} {ops more : List Operation}

/-- To answer without a change is to perform no operation. -/
protected lemma pure (a : α) : Performs (pure a : Changes α) project [] :=
  fun _ => rfl

/-- Changes in a row perform their operations in a row. -/
protected lemma bind (hx : Performs x project ops) (hk : ∀ a, Performs (k a) project more) :
    Performs (x >>= k) project (ops ++ more) := by
  intro r
  rw [bind_apply, performAll_append, ← hx r]
  rcases x r with ⟨_ | a, next⟩
  · rfl
  · exact hk a next

/-- An answer that does not count can as well be another one. -/
lemma map (hx : Performs x project ops) (answer : α → β) : Performs (answer <$> x) project ops := by
  have hanswer : ∀ a, Performs (pure (answer a)) project [] := fun a => .pure _
  have h := hx.bind hanswer
  rwa [List.append_nil] at h

/-- A change is accepted if and only if its operations are. -/
lemma exists_ok_iff (hx : Performs x project ops) (r : Registry) :
    (∃ a, (x r).1 = .ok a) ↔ (r.performAll project ops).1 = .ok () := by
  rw [← hx r]
  simp [Outcome.discard]

/-- It leads where its operations lead. -/
lemma snd_eq (hx : Performs x project ops) (r : Registry) :
    (x r).2 = (r.performAll project ops).2 := by
  rw [← hx r]
  rfl

end Performs

end Registry.Changes

namespace Fixture

open Registry.Changes

variable {f g : Fixture} {stamp other : Nat → Stamp}

/-! ### The definitions of a fixture -/

/-- Submitting definitions one after the other is performing the operations that submit them.

**Proof sketch.** Induction on the definitions. The first one is performed, and the others behind
it. -/
lemma performs_submitAll {σ α : Type} {project : String} {create : Registry → σ → Outcome α}
    {op : σ → Operation} (h : ∀ r spec, (create r spec).discard = r.perform project (op spec))
    (specs : List σ) : Performs (submitAll specs create) project (specs.map op) := by
  have hone : ∀ spec, Performs (.of fun r => create r spec) project [op spec] := fun spec r => by
    rw [performAll_singleton]
    exact h r spec
  induction specs with
  | nil => exact .pure []
  | cons spec specs ih =>
    unfold submitAll
    rw [List.mapM_cons]
    have hrest := fun a => ih.map fun rest => a :: rest
    exact (hone spec).bind hrest

/-- The definitions of a fixture in the order in which they are submitted. -/
def creations (f : Fixture) (stamp : Nat → Stamp) : List Creation :=
  f.eventSchemas.map .eventSchema ++ (f.profileProperties.map .profileProperty ++
    (f.computedSchemas.map .computedField ++
      f.segments.zipIdx.map fun p => .segment (stamp p.2) p.1))

/-- Submitting a fixture is performing the operations that submit its definitions. -/
lemma performs_define (f : Fixture) (stamp : Nat → Stamp) :
    Performs (f.define stamp) f.projectId ((f.creations stamp).map Creation.operation) := by
  simp only [creations, List.map_append, List.map_map]
  refine .bind (.map (performs_submitAll (fun _ _ => rfl) _) _) fun _ => ?_
  refine .bind (.map (performs_submitAll (fun _ _ => rfl) _) _) fun _ => ?_
  refine .bind (.map (performs_submitAll (fun _ _ => rfl) _) _) fun _ => ?_
  exact performs_submitAll (fun _ _ => rfl) _

/-- A fixture is loaded if and only if its definitions are accepted. -/
lemma exists_load_eq_ok_iff {r : Registry} {store : Store} :
    (∃ summary, (f.load stamp r store).1 = .ok summary) ↔
      (r.performAll f.projectId ((f.creations stamp).map Creation.operation)).1 = .ok () := by
  rw [← (f.performs_define stamp).exists_ok_iff, load]
  rcases f.define stamp r with ⟨_ | segments, next⟩ <;> simp

/-- It leaves the registry that its definitions lead to. -/
lemma load_registry (r : Registry) (store : Store) :
    (f.load stamp r store).2.1 =
      (r.performAll f.projectId ((f.creations stamp).map Creation.operation)).2 := by
  rw [← (f.performs_define stamp).snd_eq, load]
  rcases f.define stamp r with ⟨_ | segments, next⟩ <;> rfl

/-- It fills the store if it is loaded. -/
lemma load_store {r : Registry} {store : Store}
    (h : ∃ summary, (f.load stamp r store).1 = .ok summary) :
    (f.load stamp r store).2.2 = f.fill store := by
  obtain ⟨summary, hsummary⟩ := h
  rw [load] at hsummary ⊢
  generalize f.define stamp r = outcome at hsummary ⊢
  obtain ⟨_ | segments, next⟩ := outcome
  · cases hsummary
  · rfl

/-! ### The order in a fixture -/

/-- The identifiers that the segments of a fixture get.

**Proof sketch.** Only segments get identifiers, and each gets that of the stamp with its place. -/
lemma filterMap_id?_creations (f : Fixture) (stamp : Nat → Stamp) :
    (f.creations stamp).filterMap Creation.id? =
      (List.range f.segments.length).map fun place => (stamp place).id := by
  have hnone : ∀ {σ : Type} (create : σ → Creation) (specs : List σ),
      (∀ spec, (create spec).id? = none) → (specs.map create).filterMap Creation.id? = [] := by
    intro σ create specs hid
    simp [List.filterMap_map, hid]
  unfold creations
  rw [List.filterMap_append, List.filterMap_append, List.filterMap_append, hnone _ _ fun _ => rfl,
    hnone _ _ fun _ => rfl, hnone _ _ fun _ => rfl, List.nil_append, List.nil_append,
    List.nil_append, List.filterMap_map]
  calc
    _ = f.segments.zipIdx.filterMap fun p => some (stamp p.2).id := rfl
    _ = (f.segments.zipIdx.map Prod.snd).map fun place => (stamp place).id := by
      rw [List.filterMap_eq_map', List.map_map, Function.comp_def]
    _ = (List.range f.segments.length).map fun place => (stamp place).id := by
      rw [List.zipIdx_map_snd, List.range_eq_range']

/-- What the segments of a fixture say does not depend on their places. -/
lemma map_compile_segments (specs : List Segment.Spec) (stamp : Nat → Stamp) (any : Stamp) :
    (specs.zipIdx.map fun p => Creation.segment (stamp p.2) p.1).map Creation.compile =
      specs.map fun spec => (Creation.segment any spec).compile := by
  calc
    _ = specs.zipIdx.map fun p => (Creation.segment any p.1).compile := by
      rw [List.map_map]
      refine List.map_congr_left fun p _ => ?_
      rw [Function.comp_apply, Creation.compile_segment]
    _ = (specs.zipIdx.map Prod.fst).map fun spec => (Creation.segment any spec).compile := by
      rw [List.map_map, Function.comp_def]
    _ = _ := by rw [List.zipIdx_map_fst]

/-- A fixture that lists the same in another order, kind by kind. -/
structure Reordered (f g : Fixture) : Prop where
  /-- Both are the same project. -/
  projectId : f.projectId = g.projectId
  /-- The events are in any order. -/
  eventSchemas : f.eventSchemas.Perm g.eventSchemas
  /-- So are the declared attributes. -/
  profileProperties : f.profileProperties.Perm g.profileProperties
  /-- So are the computed fields. -/
  computedSchemas : f.computedSchemas.Perm g.computedSchemas
  /-- So are the segments. -/
  segments : f.segments.Perm g.segments
  /-- The profiles are the same. -/
  profiles : f.profiles = g.profiles
  /-- So are the events that happened. -/
  events : f.events = g.events

/-- Definitions in another order say the same. -/
lemma Reordered.perm_compile (h : Reordered f g) (stamp other : Nat → Stamp) :
    ((f.creations stamp).map Creation.compile).Perm
      ((g.creations other).map Creation.compile) := by
  simp only [creations, List.map_append]
  refine ((h.eventSchemas.map _).map _).append ?_
  refine ((h.profileProperties.map _).map _).append ?_
  refine ((h.computedSchemas.map _).map _).append ?_
  rw [map_compile_segments f.segments stamp (stamp 0), map_compile_segments _ other (stamp 0)]
  exact h.segments.map _

/-- Profiles and events fill a store in the order in which they are. -/
lemma Reordered.fill_eq (h : Reordered f g) (store : Store) : f.fill store = g.fill store := by
  rw [fill, fill, h.projectId, h.profiles, h.events]

/-- The order in which a fixture lists events, attributes, computed fields and segments does not
matter. If no two segments get the same identifier, the fixture is loaded into a new registry and a
new store in one order if and only if it is in the other, and then all projects are equal up to the
identifiers and times of segments, and the stores are equal.

**Proof sketch.** The fixture is loaded if and only if its definitions can be in one project, and
then the project consists of them. Neither depends on their order. The order of evaluation is that
of the computed fields at the end, and does not remember those before. -/
theorem load_reordered (h : Reordered f g)
    (hids : ((List.range f.segments.length).map fun place => (stamp place).id).Nodup)
    (hothers : ((List.range g.segments.length).map fun place => (other place).id).Nodup) :
    ((∃ summary, (f.load stamp .empty .empty).1 = .ok summary) ↔
      ∃ summary, (g.load other .empty .empty).1 = .ok summary) ∧
    ((∃ summary, (f.load stamp .empty .empty).1 = .ok summary) →
      (∀ project, ((f.load stamp .empty .empty).2.1.snapshot project).Matches
        ((g.load other .empty .empty).2.1.snapshot project)) ∧
      (f.load stamp .empty .empty).2.2 = (g.load other .empty .empty).2.2) := by
  rw [← filterMap_id?_creations] at hids hothers
  obtain ⟨haccepted, hmatch⟩ := performAll_reordered (h.perm_compile stamp other) hids hothers
  have hiff : (∃ summary, (f.load stamp .empty .empty).1 = .ok summary) ↔
      ∃ summary, (g.load other .empty .empty).1 = .ok summary := by
    rw [exists_load_eq_ok_iff, exists_load_eq_ok_iff, ← h.projectId]
    exact haccepted
  refine ⟨hiff, fun hloaded => ⟨fun project => ?_, ?_⟩⟩
  · rw [load_registry, load_registry, ← h.projectId]
    exact hmatch (exists_load_eq_ok_iff.1 hloaded) project
  · rw [load_store hloaded, load_store (hiff.1 hloaded), h.fill_eq]

/-! ### The fixture of a shop -/

/-- All customers. -/
def everyone : Segment.Spec :=
  ⟨"everyone", none, []⟩

/-- The segment of all customers compiles, under any identifier and at any time. -/
lemma compile_everyone (id : Uuid) (now : Instant) :
    Segment.compile id now everyone = .ok ⟨id, "everyone", none, [], now, now⟩ := by
  have hname : Text.trim "everyone" = "everyone" := by decide +kernel
  refine Segment.compile_eq_ok.2 ⟨[], rfl, ?_, ?_⟩
  · rw [everyone, hname]
    exact ⟨hname, by decide⟩
  · rw [everyone, hname]

/-- The shop with the label before the visits that it mentions. -/
def shop : Fixture where
  projectId := "shop"
  eventSchemas := []
  profileProperties := []
  computedSchemas := [label, visits]
  segments := [visitors, everyone]
  profiles := []
  events := []

/-- The shop the other way round. -/
def shopReversed : Fixture :=
  { shop with computedSchemas := [visits, label], segments := [everyone, visitors] }

/-- The first segment gets the first identifier, whichever it is. -/
def shopStamp : Nat → Stamp
  | 0 => opening
  | _ => ⟨⟨2, Uuid.two_lt⟩, opening.time⟩

/-- The definitions of the shop can be in one project.

**Proof sketch.** All four definitions compile, their titles differ, and the label has a higher rank
than the visits, which it reads. -/
lemma acceptable_shop : Acceptable (shop.creations shopStamp)
    [.computedField labelField, .computedField visitsField, .segment visitorsSegment.content,
      .segment ⟨"everyone", none, []⟩] where
  compiled := by
    show [(Creation.computedField label).compile, (Creation.computedField visits).compile,
      (Creation.segment opening visitors).compile,
      (Creation.segment (shopStamp 1) everyone).compile] = _
    simp only [Creation.compile, compile_label, compile_visits, compile_visitors, compile_everyone]
    rfl
  titles := by simp [Definition.title, labelField, visitsField, visitorsSegment, Segment.content]
  ranked := by
    refine ⟨fun name => if name = "label" then 1 else 0, fun f g hf hg hread => ?_⟩
    simp only [List.mem_cons, Definition.computedField.injEq, reduceCtorEq, List.not_mem_nil,
      or_false] at hf hg
    rcases hf with rfl | rfl
    · rcases hg with rfl | rfl
      · exact absurd hread (by decide)
      · decide
    · exact absurd hread (List.not_mem_nil)

/-- The shop is loaded in both orders, and the segments that have each other's identifiers say the
same. -/
theorem shop_reordered :
    Reordered shop shopReversed ∧
      ((List.range shop.segments.length).map fun place => (shopStamp place).id).Nodup ∧
      (∃ summary, (shop.load shopStamp .empty .empty).1 = .ok summary) ∧
      (∃ summary, (shopReversed.load shopStamp .empty .empty).1 = .ok summary) ∧
      ((shop.load shopStamp .empty .empty).2.1.snapshot "shop").Matches
        ((shopReversed.load shopStamp .empty .empty).2.1.snapshot "shop") := by
  have hreordered : Reordered shop shopReversed :=
    ⟨rfl, .refl _, .refl _, .swap _ _ _, .swap _ _ _, rfl, rfl⟩
  have hids : ((List.range shop.segments.length).map fun place => (shopStamp place).id).Nodup := by
    decide
  have hloaded : ∃ summary, (shop.load shopStamp .empty .empty).1 = .ok summary :=
    exists_load_eq_ok_iff.2 (performAll_of_acceptable
      ((filterMap_id?_creations shop shopStamp).symm ▸ hids) acceptable_shop)
  obtain ⟨hiff, hsame⟩ := load_reordered hreordered hids hids
  exact ⟨hreordered, hids, hloaded, hiff.1 hloaded, (hsame hloaded).1 "shop"⟩

end Fixture

end Cohort
