import Cohort.CommandLine.Run
import Cohort.Proofs.Fixture
import Cohort.Proofs.Uuid
set_option relaxedAutoImplicit false
set_option autoImplicit false

/-!
# Naming a segment on the command line

A segment is named by its identifier or by its name. Its identifier always leads to it. Names are
unique in every registry that fixtures are loaded into, so a name leads to one segment only; but a
name that looks like an identifier is read as one, and the segment that has it is not looked for.

## Main definitions

* `Cohort.Fixture.Loaded` — registries and stores that fixtures lead to.

## Main results

* `Cohort.Fixture.Loaded.identified` — names are unique after any fixtures.
* `Cohort.CommandLine.readSegment_loaded` — which segment a name or an identifier means.
* `Cohort.CommandLine.answer_named` — commands answer the same for both.
-/

namespace Cohort

/-! ### Loaded fixtures -/

/-- Registries and stores after any fixtures were loaded one after the other, refused ones among
them. -/
inductive Fixture.Loaded : Registry → Store → Prop
  /-- Nothing was loaded. -/
  | new : Loaded .empty .empty
  /-- One more fixture is loaded, up to its first definition that is refused. -/
  | load (f : Fixture) (stamp : Nat → Stamp) {r : Registry} {store : Store}
      (before : Loaded r store) :
      Loaded (f.load stamp r store).2.1 (f.load stamp r store).2.2

/-- Names and identifiers are unique after any fixtures.

**Proof sketch.** Induction on the fixtures. Each of them submits definitions, and what is submitted
keeps names and identifiers unique, accepted or not. -/
theorem Fixture.Loaded.identified {r : Registry} {store : Store} (h : Loaded r store)
    (project : String) : (r.snapshot project).Identified := by
  induction h generalizing project with
  | new => exact Snapshot.identified_empty project
  | load f stamp before ih =>
    rw [f.load_registry]
    exact Registry.performAll_keeps (fun h hedit => { h.edits hedit with }) ih _ _ project

namespace CommandLine

variable {s : Service} {store : Store} {project : String} {g : Segment}

/-! ### Reading a segment -/

/-- A text of an identifier means that identifier. -/
lemma readSegment_of_ofText? {text : String} {id : Uuid} (h : Uuid.ofText? text = some id) :
    readSegment s project text = .ok id := by
  rw [readSegment, h]

/-- The name of a segment means the segment, if it is no text of an identifier. -/
lemma readSegment_name (hloaded : Fixture.Loaded s.registry store)
    (hg : g ∈ (s.registry.snapshot project).segments.values) :
    readSegment s project g.name = .ok ((Uuid.ofText? g.name).getD g.id) := by
  unfold readSegment
  cases Uuid.ofText? g.name with
  | some id => rfl
  | none =>
    rw [(hloaded.identified project).segmentNamed?_eq hg]
    rfl

/-- In every registry that fixtures lead to, each text of its identifier means a segment. Its name
means it too, unless the name is a text of another identifier: then that identifier is meant,
whether or not a segment has it. -/
theorem readSegment_loaded (hloaded : Fixture.Loaded s.registry store)
    (hg : g ∈ (s.registry.snapshot project).segments.values) :
    (∀ text, Uuid.ofText? text = some g.id → readSegment s project text = .ok g.id) ∧
      readSegment s project g.id.write = .ok g.id ∧
      readSegment s project g.name = .ok ((Uuid.ofText? g.name).getD g.id) ∧
      (readSegment s project g.name = .ok g.id ↔
        ∀ id, Uuid.ofText? g.name = some id → id = g.id) := by
  have hname := readSegment_name hloaded hg
  refine ⟨fun text => readSegment_of_ofText?, readSegment_of_ofText? (Uuid.ofText?_write g.id),
    hname, ?_⟩
  rw [hname, Except.ok.injEq]
  cases Uuid.ofText? g.name with
  | some id => simp
  | none => simp

/-- The fixture of a shop with one segment, to which all customers belong. -/
def shopOf (name : String) : Fixture :=
  { Fixture.shop with computedSchemas := [], segments := [⟨name, none, []⟩] }

/-- The segment as the registry has it. -/
def segmentOf (name : String) : Segment :=
  ⟨Registry.opening.id, name, none, [], Registry.opening.time, Registry.opening.time⟩

/-- A service over what the fixture leads to. -/
def serviceOf (name : String) : Service where
  settings := {}
  registry := ((shopOf name).load Fixture.shopStamp .empty .empty).2.1
  source := ((shopOf name).load Fixture.shopStamp .empty .empty).2.2.source
  now := Registry.opening.time

/-- The registry of the shop is what loading its fixture leaves. -/
lemma loaded_serviceOf (name : String) :
    Fixture.Loaded (serviceOf name).registry
      ((shopOf name).load Fixture.shopStamp .empty .empty).2.2 := by
  dsimp only [serviceOf]
  exact .load (shopOf name) Fixture.shopStamp .new

/-- The segment of a name is one of those in the project. -/
lemma segmentOf_mem {name : String} (h : IsName name) :
    segmentOf name ∈ ((serviceOf name).registry.snapshot "shop").segments.values := by
  have hcompiled : Segment.compile Registry.opening.id Registry.opening.time ⟨name, none, []⟩ =
      .ok (segmentOf name) := by
    refine Segment.compile_eq_ok.2 ⟨[], rfl, ?_, ?_⟩
    · rwa [h.trimmed]
    · rw [h.trimmed]
      rfl
  have hcreations : ((shopOf name).creations Fixture.shopStamp).map Registry.Creation.operation =
      [.createSegment Registry.opening ⟨name, none, []⟩] := rfl
  dsimp only [serviceOf]
  rw [Fixture.load_registry, hcreations, Registry.performAll_singleton, Registry.perform,
    Registry.createSegment, hcompiled]
  exact List.mem_singleton_self _

/-- The segment of everyone is meant by its name and by its identifier. -/
theorem everyone_selected :
    Fixture.Loaded (serviceOf "everyone").registry
        ((shopOf "everyone").load Fixture.shopStamp .empty .empty).2.2 ∧
      segmentOf "everyone" ∈ ((serviceOf "everyone").registry.snapshot "shop").segments.values ∧
      readSegment (serviceOf "everyone") "shop" "everyone" = .ok Registry.opening.id ∧
      readSegment (serviceOf "everyone") "shop" Registry.opening.id.write =
        .ok Registry.opening.id := by
  have hname : IsName "everyone" := ⟨by decide +kernel, by decide⟩
  have hloaded := loaded_serviceOf "everyone"
  have hmem := segmentOf_mem hname
  obtain ⟨-, hid, -, hselected⟩ := readSegment_loaded hloaded hmem
  have hword : Uuid.ofText? "everyone" = none := by decide +kernel
  exact ⟨hloaded, hmem, hselected.2 (by rw [segmentOf, hword]; nofun), hid⟩

/-- A name that is a text of an identifier. -/
def numberName : String :=
  "00000000-0000-0000-0000-000000000007"

/-- If it is named like another identifier, then its name means that one. -/
theorem numbered_unselected :
    Fixture.Loaded (serviceOf numberName).registry
        ((shopOf numberName).load Fixture.shopStamp .empty .empty).2.2 ∧
      segmentOf numberName ∈ ((serviceOf numberName).registry.snapshot "shop").segments.values ∧
      readSegment (serviceOf numberName) "shop" numberName = .ok ⟨7, by decide⟩ ∧
      readSegment (serviceOf numberName) "shop" numberName ≠ .ok (segmentOf numberName).id := by
  have hname : IsName numberName := ⟨by decide +kernel, by decide⟩
  have hread : readSegment (serviceOf numberName) "shop" numberName = .ok ⟨7, by decide⟩ :=
    readSegment_of_ofText? (by decide +kernel)
  refine ⟨loaded_serviceOf _, segmentOf_mem hname, hread, ?_⟩
  rw [hread, segmentOf, Registry.opening]
  simp

/-! ### Commands -/

/-- So commands answer the same whether they get the name of a segment or its identifier, unless the
name is a text of another identifier. -/
theorem answer_named {w : World} {summary : Fixture.Summary}
    (hloaded : Fixture.Loaded s.registry store)
    (hg : g ∈ (s.registry.snapshot summary.projectId).segments.values)
    (hname : ∀ id, Uuid.ofText? g.name = some id → id = g.id) (profile : String) :
    (Command.sweep g.name).answer w s summary = (Command.sweep g.id.write).answer w s summary ∧
      (Command.matches profile g.name).answer w s summary =
        (Command.matches profile g.id.write).answer w s summary := by
  have hsame : readSegment s summary.projectId g.name =
      readSegment s summary.projectId g.id.write := by
    rw [readSegment_name hloaded hg, readSegment_of_ofText? (Uuid.ofText?_write g.id)]
    cases hread : Uuid.ofText? g.name with
    | none => rfl
    | some id => rw [Option.getD_some, hname id hread]
  constructor
  · rw [Command.answer, Command.answer, hsame]
  · rw [Command.answer, Command.answer, hsame]

end CommandLine

end Cohort
