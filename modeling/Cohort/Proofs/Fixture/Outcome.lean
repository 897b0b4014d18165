import Cohort.Proofs.Fixture
import Cohort.Proofs.Registry.Contents
set_option relaxedAutoImplicit false
set_option autoImplicit false

/-!
# What loading a fixture does

A fixture is loaded as a whole or up to its first definition that is refused. If there is one, the
definitions before it stay in the registry, nothing else is added, and the store is not touched. If
there is none, the summary counts what the fixture lists, and it names every segment with the
identifier under which the registry has it.

## Main definitions

* `Cohort.Fixture.Summary.Accounts` — a summary of a fixture whose definitions are in a project.

## Main results

* `Cohort.Fixture.compile_of_define` — the segments that a fixture makes.
* `Cohort.Fixture.accounts_summary` — the summary of a fixture tells what the registry has.
* `Cohort.Fixture.load_outcome` — what loading a fixture does.
-/

namespace Cohort

open Registry Result

/-! ### The answers of changes -/

namespace Registry

/-- What two changes in a row answer is what the second answers after the first. -/
lemma Changes.exists_of_bind_eq_ok {α β : Type} {x : Changes α} {k : α → Changes β} {r : Registry}
    {b : β} (h : ((x >>= k) r).1 = .ok b) :
    ∃ a next, x r = (.ok a, next) ∧ (k a next).1 = .ok b := by
  rw [Changes.bind_apply] at h
  cases hx : x r with
  | mk answer next =>
    rw [hx] at h
    cases answer with
    | error e => cases h
    | ok a => exact ⟨a, next, rfl, h⟩

/-- A new segment that is accepted is the one that was submitted. -/
lemma compile_of_createSegment {r : Registry} {project : String} {stamp : Stamp}
    {spec : Segment.Spec} {g : Segment} (h : (r.createSegment project stamp spec).1 = .ok g) :
    Segment.compile stamp.id stamp.time spec = .ok g := by
  unfold createSegment submit at h
  split at h
  case h_1 made hmade =>
    rw [hmade]
    simp only [change] at h
    split at h
    case h_1 a next hedit =>
      simp only [bind_eq_ok, pure_eq_ok, Prod.mk.injEq] at hedit
      obtain ⟨-, -, rfl, -⟩ := hedit
      exact h
    case h_2 => cases h
  case h_2 => cases h

end Registry

namespace Fixture

variable {f : Fixture} {stamp : Nat → Stamp} {r next : Registry} {segments : List Segment}
  {items : List Item}

/-- Definitions that are all accepted are answered one by one.

**Proof sketch.** Induction on the definitions, where each one is submitted to what those before it
left. -/
lemma submitAll_answers {σ α : Type} {create : Registry → σ → Outcome α} {Tells : σ → α → Prop}
    (htells : ∀ r spec a, (create r spec).1 = .ok a → Tells spec a) {specs : List σ}
    {answers : List α} (h : (submitAll specs create r).1 = .ok answers) :
    List.Forall₂ Tells specs answers := by
  induction specs generalizing r answers with
  | nil =>
    cases h
    exact .nil
  | cons spec specs ih =>
    unfold submitAll at h
    rw [List.mapM_cons] at h
    obtain ⟨a, after, ha, h⟩ := Changes.exists_of_bind_eq_ok h
    obtain ⟨rest, last, hrest, h⟩ := Changes.exists_of_bind_eq_ok h
    cases h
    refine .cons (htells r spec a ?_) (ih (r := after) ?_)
    · exact congrArg Prod.fst ha
    · exact congrArg Prod.fst hrest

/-- The segments that a fixture makes are those that it lists, with the stamps of their places. -/
lemma compile_of_define (h : (f.define stamp r).1 = .ok segments) :
    List.Forall₂ (fun p g => Segment.compile (stamp p.2).id (stamp p.2).time p.1 = .ok g)
      f.segments.zipIdx segments := by
  obtain ⟨-, r₁, -, h⟩ := Changes.exists_of_bind_eq_ok h
  obtain ⟨-, r₂, -, h⟩ := Changes.exists_of_bind_eq_ok h
  obtain ⟨-, r₃, -, h⟩ := Changes.exists_of_bind_eq_ok h
  refine submitAll_answers (fun r p g hg => ?_) h
  obtain ⟨spec, place⟩ := p
  exact compile_of_createSegment hg

/-- Each segment that a fixture lists is made. -/
lemma exists_compile_of_getElem? (h : (f.define stamp r).1 = .ok segments) {place : Nat}
    {spec : Segment.Spec} (hspec : f.segments[place]? = some spec) :
    ∃ g ∈ segments, Segment.compile (stamp place).id (stamp place).time spec = .ok g := by
  have hmem : (spec, place) ∈ f.segments.zipIdx := List.mem_zipIdx_iff_getElem?.2 hspec
  obtain ⟨i, hi, hp⟩ := List.getElem_of_mem hmem
  have hcompiled := compile_of_define h
  have hi' : i < segments.length := hcompiled.length_eq ▸ hi
  have hmade := hcompiled.get hi hi'
  rw [List.get_eq_getElem, hp] at hmade
  exact ⟨_, List.get_mem segments ⟨i, hi'⟩, hmade⟩

/-- The last definitions of a fixture are its segments. -/
lemma exists_eq_append_segments
    (hitems : (f.creations stamp).map Creation.item = items.map Except.ok)
    (h : (f.define stamp r).1 = .ok segments) :
    ∃ others, items = others ++ segments.map .segment := by
  have hlast : (f.segments.zipIdx.map fun p => Creation.segment (stamp p.2) p.1).map Creation.item =
      (segments.map .segment).map Except.ok := by
    rw [List.map_map, List.map_map, ← List.forall₂_eq_eq_eq, List.forall₂_map_left_iff,
      List.forall₂_map_right_iff]
    exact (compile_of_define h).imp fun p g hg => by simp [Creation.item, hg]
  rw [creations, ← List.append_assoc, ← List.append_assoc, List.map_append, hlast,
    List.append_eq_map_iff] at hitems
  obtain ⟨others, last, rfl, -, hsegments⟩ := hitems
  exact ⟨others, congrArg _ (List.map_injective_iff.2 (fun _ _ => Except.ok.inj) hsegments)⟩

/-! ### The summary -/

/-- A summary of a fixture whose definitions are in a project. -/
structure Summary.Accounts (summary : Summary) (f : Fixture) (stamp : Nat → Stamp) (s : Snapshot) :
    Prop where
  /-- It is about the project of the fixture. -/
  projectId : summary.projectId = f.projectId
  /-- The declared events are counted. -/
  eventSchemas : summary.eventSchemas = f.eventSchemas.length
  /-- So are the declared attributes. -/
  profileProperties : summary.profileProperties = f.profileProperties.length
  /-- So are the computed fields. -/
  computedSchemas : summary.computedSchemas = f.computedSchemas.length
  /-- So are the profiles. -/
  profiles : summary.profiles = f.profiles.length
  /-- So are the events that happened. -/
  events : summary.events = f.events.length
  /-- There is one entry for each segment. -/
  size : summary.segments.size = f.segments.length
  /-- Each segment is listed under its name, with the stamp of its place. -/
  listed : ∀ place spec, f.segments[place]? = some spec →
    summary.segments.get? (Text.trim spec.name) = some (stamp place).id
  /-- What is listed is the identifier of the segment that the project has under that name. -/
  stored : ∀ name id, summary.segments.get? name = some id →
    ∃ g, s.segmentNamed? name = some g ∧ g.id = id ∧ s.segments.get? id = some g

/-- The summary of a fixture whose definitions are all accepted tells what the registry has.

**Proof sketch.** What the registry has gained is the list of items of the definitions, which ends
with the segments. Their names differ, since no two titles are the same, so the index of the summary
finds each segment under its name. -/
lemma accounts_summary (h : (f.define stamp r).1 = .ok segments)
    (hgains : r.Gains next f.projectId (f.creations stamp)) :
    (f.summary segments).Accounts f stamp (next.snapshot f.projectId) := by
  obtain ⟨-, items, hitems, hgains⟩ := hgains
  have hcompiled := compile_of_define h
  obtain ⟨others, rfl⟩ := exists_eq_append_segments hitems h
  have hmem : ∀ g ∈ segments, Item.segment g ∈ others ++ segments.map Item.segment :=
    fun g hg => List.mem_append_right _ (List.mem_map_of_mem hg)
  have hnames : ((segments.map fun g => (g.name, g.id)).map Prod.fst).Nodup := by
    have htitles := hgains.nodup_titles
    rw [List.map_append, List.map_map] at htitles
    rw [List.map_map]
    -- the names are titles of segments, which are among the titles of all new definitions
    refine List.Nodup.of_map Title.segment ?_
    rw [List.map_map]
    exact (List.nodup_append'.1 htitles).2.1
  have hlookup : ∀ name id, (f.summary segments).segments.get? name = some id ↔
      ∃ g ∈ segments, g.name = name ∧ g.id = id := by
    intro name id
    rw [summary, Index.get?_ofList, List.mem_map]
    · simp only [Prod.mk.injEq]
    · intro e he e' he' heq
      rw [List.inj_on_of_nodup_map hnames he he' heq]
  exact {
    projectId := rfl
    eventSchemas := rfl
    profileProperties := rfl
    computedSchemas := rfl
    profiles := rfl
    events := rfl
    size := by
      rw [summary, Index.size_ofList hnames, List.length_map, ← hcompiled.length_eq,
        List.length_zipIdx]
    listed := by
      intro place spec hspec
      obtain ⟨g, hg, hmade⟩ := exists_compile_of_getElem? h hspec
      obtain ⟨filters, -, -, rfl⟩ := Segment.compile_eq_ok.1 hmade
      exact (hlookup _ _).2 ⟨_, hg, rfl, rfl⟩
    stored := by
      intro name id hid
      obtain ⟨g, hg, rfl, rfl⟩ := (hlookup name id).1 hid
      refine ⟨g, hgains.segmentNamed?_eq (hmem g hg), rfl, ?_⟩
      have hheld := hgains.item?_eq_some.2 (.inr ⟨hmem g hg, rfl⟩)
      simpa [Snapshot.item?, Item.address] using hheld }

/-- A fixture is refused as its definitions are. -/
lemma load_eq_error_iff {store : Store} {e : Error} :
    (f.load stamp r store).1 = .error e ↔
      (r.performAll f.projectId ((f.creations stamp).map Creation.operation)).1 = .error e := by
  rw [← f.performs_define stamp, load]
  rcases f.define stamp r with ⟨_ | segments, next⟩ <;> simp [Outcome.discard, map_eq_error]

/-- Loading a fixture into any registry and store, where the generator of identifiers gives the
segments identifiers that differ from one another and that no segment of the project has. If it
fails, the store is as it was, and the error is the one with which the registry refuses the first
definition that it refuses; the registry is as the definitions before that one left it, so it holds
what it held and these. If it succeeds, the registry holds what it held and all definitions, the
profiles and events are in the store, and the summary counts what the fixture lists and names the
segments with their identifiers.

**Proof sketch.** Loading is performing the operations that submit the definitions, up to the first
that is refused. Each that is accepted adds its definition, and one that is refused changes nothing,
not even which projects are known. -/
theorem load_outcome (f : Fixture) (stamp : Nat → Stamp) (r : Registry) (store : Store)
    (hids : ((List.range f.segments.length).map fun place => (stamp place).id).Nodup)
    (hunused : ∀ place < f.segments.length,
      ¬ (r.snapshot f.projectId).segments.contains (stamp place).id) :
    (∀ e, (f.load stamp r store).1 = .error e →
      (f.load stamp r store).2.2 = store ∧
      ∃ before c rest, f.creations stamp = before ++ c :: rest ∧
        (r.performAll f.projectId (before.map Creation.operation)).1 = .ok () ∧
        (f.load stamp r store).2.1 =
          (r.performAll f.projectId (before.map Creation.operation)).2 ∧
        ((f.load stamp r store).2.1.perform f.projectId c.operation).1 = .error e ∧
        r.Gains (f.load stamp r store).2.1 f.projectId before) ∧
    (∀ summary, (f.load stamp r store).1 = .ok summary →
      (f.load stamp r store).2.2 = f.fill store ∧
      r.Gains (f.load stamp r store).2.1 f.projectId (f.creations stamp) ∧
      summary.Accounts f stamp ((f.load stamp r store).2.1.snapshot f.projectId)) := by
  have hperforms := f.performs_define stamp r
  have hregistry : (f.load stamp r store).2.1 = _ := f.load_registry r store
  rw [← filterMap_id?_creations] at hids
  have hfree : ∀ id ∈ (f.creations stamp).filterMap Creation.id?,
      ¬ (r.snapshot f.projectId).segments.contains id := by
    simpa [filterMap_id?_creations] using hunused
  rw [hregistry]
  unfold load
  cases hdefine : f.define stamp r with
  | mk answer next =>
    rw [hdefine] at hperforms
    cases answer with
    | error e =>
      refine ⟨fun e' he => ?_, fun summary hsummary => by cases hsummary⟩
      cases he
      have herror := congrArg Prod.fst hperforms.symm
      obtain ⟨before, c, rest, hcs, hbefore, hrefused, hkept⟩ := performAll_stops herror
      rw [hcs, List.filterMap_append] at hids hfree
      have hgains := gains_performAll (List.nodup_append'.1 hids).1
        (fun id hid => hfree id (List.mem_append_left _ hid)) hbefore
      rw [hkept]
      exact ⟨rfl, before, c, rest, hcs, hbefore, rfl, hrefused, hgains⟩
    | ok segments =>
      refine ⟨fun e he => (by cases he), fun summary hsummary => ?_⟩
      cases hsummary
      have hok := congrArg Prod.fst hperforms.symm
      have hgains := gains_performAll hids hfree hok
      exact ⟨rfl, hgains, accounts_summary (congrArg Prod.fst hdefine) hgains⟩

/-! ### A fixture that stops -/

/-- A fixture that lists all customers twice. -/
def twins : Fixture :=
  { shop with computedSchemas := [], segments := [everyone, everyone] }

/-- The segment of all customers is accepted in a new registry. -/
lemma perform_everyone : Registry.empty.perform "shop" (.createSegment opening everyone) =
    (.ok (), ⟨Index.empty.insert "shop"
      { Snapshot.empty "shop" with
        version := 1
        segments := Index.empty.insert opening.id
          ⟨opening.id, "everyone", none, [], opening.time, opening.time⟩ }⟩) := by
  rw [perform, createSegment, compile_everyone]
  rfl

/-- Their second definition has a name that is taken, so the first one is all that is loaded. -/
theorem twins_stop :
    ((List.range twins.segments.length).map fun place => (shopStamp place).id).Nodup ∧
      (∀ place < twins.segments.length,
        ¬ (Registry.empty.snapshot twins.projectId).segments.contains (shopStamp place).id) ∧
      (twins.load shopStamp .empty .empty).1 =
        .error (.conflict (.nameTaken .segment "everyone")) ∧
      (twins.load shopStamp .empty .empty).2.2 = .empty ∧
      ((twins.load shopStamp .empty .empty).2.1.snapshot "shop").version = 1 := by
  have hids : ((List.range twins.segments.length).map fun place => (shopStamp place).id).Nodup := by
    decide
  have hunused : ∀ place < twins.segments.length,
      ¬ (Registry.empty.snapshot twins.projectId).segments.contains (shopStamp place).id :=
    fun place _ hin => by cases hin
  have hagain : ((Registry.empty.perform "shop" (.createSegment opening everyone)).2.perform "shop"
      (.createSegment (shopStamp 1) everyone)).1 =
        .error (.conflict (.nameTaken .segment "everyone")) := by
    rw [perform_everyone, perform, createSegment, compile_everyone]
    rfl
  have herror : (twins.load shopStamp .empty .empty).1 =
      .error (.conflict (.nameTaken .segment "everyone")) := by
    rw [load_eq_error_iff]
    change (Registry.empty.performAll "shop" ([.createSegment opening everyone] ++
      [.createSegment (shopStamp 1) everyone])).1 = _
    rw [performAll_append, performAll_singleton]
    rw [perform_everyone] at hagain ⊢
    exact (congrArg Prod.fst (performAll_singleton ..)).trans hagain
  obtain ⟨hstore, before, c, rest, hcs, -, hkept, hrefused, hgains⟩ :=
    (load_outcome twins shopStamp .empty .empty hids hunused).1 _ herror
  refine ⟨hids, hunused, herror, hstore, ?_⟩
  obtain ⟨items, hitems, hgains⟩ := hgains.project
  have hlength : before.length = items.length := by simpa using congrArg List.length hitems
  have hcount : before.length + rest.length = 1 := by
    have htwo : 2 = (before ++ c :: rest).length := congrArg List.length hcs
    rw [List.length_append, List.length_cons] at htwo
    omega
  -- the first definition is accepted, so it is not the one that is refused
  have hpos : 0 < before.length := by
    by_contra hnil
    obtain rfl : before = [] := List.eq_nil_of_length_eq_zero (by omega)
    obtain ⟨rfl, -⟩ := List.cons.inj hcs
    rw [hkept] at hrefused
    cases hrefused.symm.trans (congrArg Prod.fst perform_everyone)
  refine hgains.version.trans ?_
  change 0 + items.length = 1
  omega

end Fixture

end Cohort
