import Cohort.Proofs.Formula.Parser
import Cohort.Proofs.Registry.Ordered
set_option relaxedAutoImplicit false
set_option autoImplicit false

/-!
# Deleting computed fields

Without one of its fields, a snapshot keeps an order of evaluation: the fields that remain read one
another only along the order that they had before. So a deletion is refused only because there is no
such field or because something reads it, and never because of a cycle.

## Main results

* `Cohort.Snapshot.Named.exists_reordered` — fields that read only fields of a lower rank have an
  order.
* `Cohort.Snapshot.Ordered.exists_reordered_erase` — so do the fields that a deletion leaves.
* `Cohort.Registry.deleteComputedField_eq` — what a deletion answers.
* `Cohort.Registry.evaluationOrder_after` — the order of evaluation after any operations, and that
  no deletion is refused because of a cycle.
-/

namespace Cohort

namespace Snapshot

variable {s : Snapshot}

/-- An edge runs from a field to a field that it reads.

**Proof sketch.** The nodes and edges of the graph come from the fields, and each field is stored
under its own name. -/
lemma Named.of_mem_edges (h : s.Named) {name read : String}
    (hedge : (name, read) ∈ s.dependencyGraph.edges) :
    ∃ f, s.computed.get? name = some f ∧ read ∈ f.references ∧ s.computed.contains read := by
  unfold dependencyGraph at hedge
  obtain ⟨⟨field, hfield, hname, hread⟩, hnode⟩ := Dependency.Graph.mem_edges_ofReferences.1 hedge
  obtain ⟨f, hf, rfl⟩ := List.mem_map.1 hfield
  obtain ⟨k, hk⟩ := Index.mem_values.1 hf
  have hkey : k = name := (h k f hk).symm.trans hname.symm
  refine ⟨f, hkey ▸ hk, hread, ?_⟩
  rw [List.map_map, List.mem_map] at hnode
  obtain ⟨g, hg, hgread⟩ := hnode
  obtain ⟨k', hk'⟩ := Index.mem_values.1 hg
  have hkey' : k' = read := (h k' g hk').symm.trans hgread
  exact Index.contains_iff.2 ⟨g, hkey' ▸ hk'⟩

/-- Fields that read only fields of a lower rank have an order of evaluation. -/
theorem Named.exists_reordered (h : s.Named) (rank : String → Nat)
    (hrank : ∀ name f, s.computed.get? name = some f → ∀ read ∈ f.references,
      s.computed.contains read → rank read < rank name) : ∃ next, s.reordered = .ok next := by
  have hwf : s.dependencyGraph.WellFormed := Dependency.Graph.wellFormed_ofReferences _
  have hdown : WellFounded fun read reader => (reader, read) ∈ s.dependencyGraph.edges := by
    refine Subrelation.wf (fun {read reader} hedge => ?_) (measure rank).wf
    obtain ⟨f, hf, hread, hfield⟩ := h.of_mem_edges hedge
    exact hrank reader f hf read hread hfield
  obtain ⟨order, horder⟩ := Dependency.Graph.exists_order hwf hdown
  exact ⟨_, reordered_eq_ok.2 ⟨order, horder, rfl⟩⟩

/-- What is left of an ordered snapshot without a field has an order of evaluation: that of the
fields before. -/
lemma Ordered.exists_reordered_erase (h : s.Ordered) (name : String) :
    ∃ next, { s with computed := s.computed.erase name }.reordered = .ok next := by
  refine (h.named.erase name).exists_reordered s.rank ?_
  intro other f (hf : (s.computed.erase name).get? other = some f) read hread
    (hfield : (s.computed.erase name).contains read)
  rw [Index.get?_erase] at hf
  split at hf
  case isTrue => cases hf
  case isFalse => exact h.rank_lt hf read hread (Index.contains_erase.1 hfield).2

end Snapshot

namespace Registry

/-- A change answers what its edit answers. -/
lemma change_fst {α : Type} (r : Registry) (project : String)
    (edit : Snapshot → Result (α × Snapshot)) :
    (r.change project edit).1 = (edit (r.snapshot project)).map Prod.fst := by
  unfold change
  simp only
  cases edit (r.snapshot project) <;> rfl

/-- A deletion in an ordered snapshot is refused only if there is no such field or if something
reads it.

**Proof sketch.** The checks are made one after the other: the field is there, and nothing reads it.
Without a field that nothing reads, an order remains. -/
theorem deleteComputedField_eq {r : Registry} {project : String}
    (h : (r.snapshot project).Ordered) (name : String) :
    (r.deleteComputedField project name).1 =
      if (r.snapshot project).computed.contains name then
        if (r.snapshot project).dependentsOf name = [] then .ok ()
        else .error (.inUse name ((r.snapshot project).dependentsOf name))
      else .error (.notFound .computedField name) := by
  obtain ⟨next, hnext⟩ := h.exists_reordered_erase name
  rw [deleteComputedField, change_fst]
  by_cases hpresent : (r.snapshot project).computed.contains name = true
  · rw [if_pos hpresent]
    by_cases hunused : (r.snapshot project).dependentsOf name = []
    · rw [if_pos hunused]
      simp only [checkPresent, hpresent, hunused, hnext]
      rfl
    · have hused : ((r.snapshot project).dependentsOf name).isEmpty = false := by
        simpa using hunused
      rw [if_neg hunused]
      simp only [checkPresent, hpresent, hused]
      rfl
  · rw [if_neg hpresent]
    simp only [checkPresent, hpresent]
    rfl

/-- After any operations on any projects, refused ones among them, the order of evaluation of a
project lists its computed fields, each once, and every field comes after the computed fields that
its formula mentions. A deletion is then never refused because of a cycle.

**Proof sketch.** Each operation that changes the computed fields finds an order for those that it
leaves, and all others keep the fields and their order. For a deletion there always is one. -/
theorem evaluationOrder_after (steps : List (String × Operation)) (project : String) :
    let s := (after steps).snapshot project
    s.evaluationOrder.Nodup ∧ s.evaluationOrder.Perm s.computed.keys ∧
      (∀ name f, s.computed.get? name = some f → f.field = name) ∧
      (∀ name f source e, s.computed.get? name = some f → f.computation = .formula source e →
        ∀ read ∈ e.identifiers, s.computed.contains read →
          s.evaluationOrder.idxOf read < s.evaluationOrder.idxOf name) ∧
      ∀ name names, ((after steps).deleteComputedField project name).1 ≠
        .error (.validation (.cycle names)) := by
  intro s
  have hordered : s.Ordered := ordered_after steps project
  refine ⟨?_, hordered.perm, hordered.named, ?_, ?_⟩
  · exact hordered.perm.nodup_iff.2 s.computed.nodup_keys
  · intro name f source e hf hformula read hread hfield
    rw [← ComputedField.references_of_formula hformula] at hread
    exact hordered.rank_lt hf read hread hfield
  · intro name names
    rw [deleteComputedField_eq hordered]
    split
    · split
      · exact fun h => by cases h
      · exact fun h => by cases h
    · exact fun h => by cases h

/-! ### A shop

The label of a customer is defined first. It mentions the visits, an attribute that becomes a
computed field only later, and then has to come before the label. -/

/-- The label of a customer. -/
def label : ComputedField.Spec :=
  ⟨"label", none, "formula", "string", none, some "CAT(visits, plan)"⟩

/-- The label as a computed field. -/
def labelField : ComputedField :=
  ⟨"label", "label", .string,
    .formula "CAT(visits, plan)" (.cat (.ident "visits") [.ident "plan"])⟩

open Formula in
/-- The grammar derives its formula. -/
lemma derives_label : Derives false .formula [.ident "CAT", .openParen, .ident "visits", .comma,
    .ident "plan", .closeParen] (.cat (.ident "visits") [.ident "plan"]) := by
  have harguments : ∀ a ∈ [([.ident "visits"], .ident "visits"), ([.ident "plan"], .ident "plan")],
      Derives (false || Function.cat.allowsArithmetic) .formula a.1 a.2 := by
    intro a ha
    simp only [List.mem_cons, List.not_mem_nil, or_false] at ha
    rcases ha with rfl | rfl
    · exact derives_name "visits"
    · exact derives_name "plan"
  exact .additive (.term (.unary (.primary (.call (by decide +kernel) harguments .cat))))

/-- The label compiles to its field. -/
lemma compile_label : ComputedField.compile label = .ok labelField := by
  have hname : readName "field" label.field = .ok "label" := by decide +kernel
  have htype : Constraint.readDataType label.dataType = .ok .string := by decide +kernel
  have hkind : Text.trim label.schemaType = "formula" := by decide +kernel
  have hparse : Formula.parse "CAT(visits, plan)" =
      .ok (.cat (.ident "visits") [.ident "plan"]) :=
    Formula.parse_eq_ok.mpr ⟨_, by decide +kernel, derives_label⟩
  unfold ComputedField.compile
  rw [hname, htype, hkind]
  simp only [ComputedField.compileFormula, Formula.compile, label, hparse]
  rfl

/-- How often a customer came. -/
def visits : ComputedField.Spec :=
  ⟨"visits", none, "aggregate", "number", some ⟨"count", .allTime, some "visit", none, none, []⟩,
    none⟩

/-- The visits as a computed field. -/
def visitsField : ComputedField :=
  ⟨"visits", "visits", .number, .aggregate ⟨.count, .allTime, some "visit", none, .total, []⟩⟩

/-- The count of visits compiles to its field. -/
lemma compile_visits : ComputedField.compile visits = .ok visitsField := by
  have hname : readName "field" visits.field = .ok "visits" := by decide +kernel
  have htype : Constraint.readDataType visits.dataType = .ok .number := by decide +kernel
  have hkind : Text.trim visits.schemaType = "aggregate" := by decide +kernel
  unfold ComputedField.compile
  rw [hname, htype, hkind]
  rfl

/-- When the shop opens. -/
def opening : Stamp :=
  ⟨⟨1, Uuid.one_lt⟩, ⟨0, 0, Instant.zero_range, Instant.zero_lt_nanos⟩⟩

/-- The customers whose visits are counted. -/
def visitors : Segment.Spec :=
  ⟨"visitors", none, [⟨"property", none, some "visits", [], none, none⟩]⟩

/-- The visitors as a segment. -/
def visitorsSegment : Segment :=
  ⟨opening.id, "visitors", none, [.property "visits" []], opening.time, opening.time⟩

/-- The visitors compile to their segment. -/
lemma compile_visitors :
    Segment.compile opening.id opening.time visitors = .ok visitorsSegment := by
  decide +kernel

/-- The definitions of the shop, and a deletion that is refused: the label mentions the visits. -/
def shopSteps : List (String × Operation) :=
  [("shop", .createComputedField label), ("shop", .createComputedField visits),
    ("shop", .createSegment opening visitors), ("shop", .deleteComputedField "visits")]

/-- What these operations lead to. -/
def shop : Snapshot where
  project := "shop"
  version := 3
  eventSchemas := .empty
  profileProperties := .empty
  computed := ⟨[("label", labelField), ("visits", visitsField)], by decide⟩
  segments := ⟨[(opening.id, visitorsSegment)], List.pairwise_singleton _ _⟩
  evaluationOrder := ["visits", "label"]

/-- The definitions are accepted, and the deletion leaves the shop as it is. -/
lemma shop_eq : (after shopSteps).snapshot "shop" = shop := by
  simp only [after, shopSteps, List.foldl, perform, createComputedField, createSegment, submit,
    compile_label, compile_visits, compile_visitors]
  rfl

/-- In the shop the label comes after the visits. -/
theorem shop_evaluationOrder :
    shop.computed.get? "label" = some labelField ∧ shop.computed.contains "visits" = true ∧
      ((after shopSteps).snapshot "shop").evaluationOrder.idxOf "visits" <
        ((after shopSteps).snapshot "shop").evaluationOrder.idxOf "label" := by
  have hlabel : ((after shopSteps).snapshot "shop").computed.get? "label" = some labelField := by
    rw [shop_eq]
    rfl
  have hvisits : ((after shopSteps).snapshot "shop").computed.contains "visits" = true := by
    rw [shop_eq]
    rfl
  obtain ⟨-, -, -, hlt, -⟩ := evaluationOrder_after shopSteps "shop"
  exact ⟨rfl, rfl, hlt "label" labelField _ _ hlabel rfl "visits" (by decide) hvisits⟩

end Registry

end Cohort
