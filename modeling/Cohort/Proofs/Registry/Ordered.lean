import Cohort.Proofs.Dependency.Order
import Cohort.Proofs.Index
import Cohort.Proofs.Registry.Operation
set_option relaxedAutoImplicit false
set_option autoImplicit false

/-!
# Ordered snapshots

The registry accepts a computed field only if the fields still have an order of evaluation, and
keeps that order in the snapshot. So whatever operations are made, each field of a snapshot stands
in the order behind the fields that its formula mentions.

## Main definitions

* `Cohort.Snapshot.Ordered` — what the registry ensures about the computed fields of a snapshot.
* `Cohort.Snapshot.rank` — the place of a field in the order.

## Main results

* `Cohort.Snapshot.ordered_of_reordered` — a snapshot that was brought up to date is ordered.
* `Cohort.Snapshot.Ordered.induction` — induction along what computed fields read.
* `Cohort.Registry.order_after` — after any operations the order is that of the computed fields.
* `Cohort.Registry.ordered_after` — after any operations all snapshots are ordered.
-/

namespace Cohort

/-- A formula field reads what its formula mentions. -/
lemma ComputedField.references_of_formula {f : ComputedField} {source : String} {e : Formula.Expr}
    (h : f.computation = .formula source e) : f.references = e.identifiers := by
  unfold references
  rw [h]

namespace Snapshot

/-- Every computed field is stored under its own name. -/
def Named (s : Snapshot) : Prop :=
  ∀ (name : String) (f : ComputedField), s.computed.get? name = some f → f.field = name

/-- The place of a computed field in the order of evaluation. -/
def rank (s : Snapshot) (name : String) : Nat :=
  s.evaluationOrder.idxOf name

/-- What the registry ensures about the computed fields of a snapshot. -/
structure Ordered (s : Snapshot) : Prop where
  /-- Every field is stored under its own name. -/
  named : s.Named
  /-- The order lists every field once. -/
  perm : s.evaluationOrder.Perm s.computed.keys
  /-- A field comes after the fields that it reads. -/
  rank_lt : ∀ {name : String} {f : ComputedField}, s.computed.get? name = some f →
    ∀ read ∈ f.references, s.computed.contains read → s.rank read < s.rank name

/-! ### The dependency graph -/

section Graph

variable {s : Snapshot}

/-- The names in the dependency graph are the names of the fields. -/
lemma Named.mem_nodes (h : s.Named) {name : String} :
    name ∈ s.dependencyGraph.nodes ↔ name ∈ s.computed.keys := by
  unfold dependencyGraph
  rw [Dependency.Graph.mem_nodes_ofReferences, List.map_map, List.mem_map, Index.mem_keys]
  constructor
  · rintro ⟨f, hf, hname⟩
    obtain ⟨k, hk⟩ := Index.mem_values.1 hf
    obtain rfl : k = name := (h k f hk).symm.trans hname
    exact ⟨f, hk⟩
  · rintro ⟨f, hf⟩
    exact ⟨f, Index.mem_values.2 ⟨name, hf⟩, h name f hf⟩

/-- A field has an edge to every field that it reads. -/
lemma Named.mem_edges (h : s.Named) {name read : String} {f : ComputedField}
    (hf : s.computed.get? name = some f) (hread : read ∈ f.references)
    (hfield : s.computed.contains read) : (name, read) ∈ s.dependencyGraph.edges := by
  unfold dependencyGraph
  refine Dependency.Graph.mem_edges_ofReferences.2 ⟨⟨(f.field, f.references), ?_, ?_, hread⟩, ?_⟩
  · exact List.mem_map_of_mem (Index.mem_values.2 ⟨name, hf⟩)
  · exact (h name f hf).symm
  · obtain ⟨g, hg⟩ := Index.contains_iff.1 hfield
    rw [List.map_map, List.mem_map]
    exact ⟨g, Index.mem_values.2 ⟨read, hg⟩, h read g hg⟩

/-- Bringing the order up to date changes the order only. -/
lemma reordered_eq_ok {next : Snapshot} :
    s.reordered = .ok next ↔
      ∃ order, s.dependencyGraph.order = .ok order ∧
        { s with evaluationOrder := order } = next := by
  unfold reordered
  split <;> simp_all

/-- A snapshot that was brought up to date is ordered. -/
theorem ordered_of_reordered (h : s.Named) {next : Snapshot} (hnext : s.reordered = .ok next) :
    next.Ordered := by
  obtain ⟨order, horder, rfl⟩ := reordered_eq_ok.1 hnext
  have hwf : s.dependencyGraph.WellFormed := Dependency.Graph.wellFormed_ofReferences _
  refine ⟨h, ?_, fun {name f} hf read hread hfield => ?_⟩
  · have hnodes : s.dependencyGraph.nodes.Perm s.computed.keys :=
      (List.perm_ext_iff_of_nodup hwf.nodes_nodup s.computed.nodup_keys).2 fun _ => h.mem_nodes
    exact (Dependency.Graph.perm_of_order_eq_ok hwf horder).trans hnodes
  · exact Dependency.Graph.idxOf_lt_of_order_eq_ok hwf horder (h.mem_edges hf hread hfield)

end Graph

/-! ### What edits keep -/

/-- In the empty snapshot there are no fields to be ordered. -/
lemma ordered_empty (project : String) : (empty project).Ordered where
  named := fun _ _ h => by cases h
  perm := .refl _
  rank_lt := fun h => by cases h

/-- A field that is stored under its own name keeps all fields so. -/
lemma Named.insert {s : Snapshot} (h : s.Named) (field : ComputedField) :
    Named { s with computed := s.computed.insert field.field field } := by
  intro name f (hf : (s.computed.insert field.field field).get? name = some f)
  rw [Index.get?_insert] at hf
  split at hf
  case isTrue hname =>
    cases hf
    exact hname
  case isFalse => exact h _ _ hf

/-- To erase a computed field leaves the others under their names. -/
lemma Named.erase {s : Snapshot} (h : s.Named) (name : String) :
    Named { s with computed := s.computed.erase name } := by
  intro other f (hf : (s.computed.erase name).get? other = some f)
  rw [Index.get?_erase] at hf
  split at hf
  case isTrue => cases hf
  case isFalse => exact h _ _ hf

/-- An ordered snapshot stays so as long as its computed fields and their order do. -/
lemma Ordered.congr {s t : Snapshot} (h : s.Ordered) (hcomputed : t.computed = s.computed)
    (horder : t.evaluationOrder = s.evaluationOrder) : t.Ordered := by
  cases s
  cases t
  simp only at hcomputed horder
  subst hcomputed horder
  exact ⟨h.named, h.perm, h.rank_lt⟩

/-- Every edit leaves an ordered snapshot. -/
lemma Ordered.edits {s edited : Snapshot} (h : s.Ordered) {op : Registry.Operation}
    (hedit : Registry.Edits s op edited) : edited.Ordered := by
  cases hedit with
  | createComputedField compiled free ordered =>
    exact ordered_of_reordered (h.named.insert _) ordered
  | updateComputedField compiled same present ordered =>
    subst same
    exact ordered_of_reordered (h.named.insert _) ordered
  | deleteComputedField present unused ordered =>
    exact ordered_of_reordered (h.named.erase _) ordered
  | _ => exact h.congr rfl rfl

end Snapshot

/-- What holds of every name that no computed field has, and of a computed field whenever it holds
of all that the field reads, holds of every name of an ordered snapshot.

**Proof sketch.** Strong induction on the place in the order. What a field reads is no computed
field, or comes before it. -/
theorem Snapshot.Ordered.induction {s : Snapshot} (h : s.Ordered) {P : String → Prop}
    (raw : ∀ name, s.computed.get? name = none → P name)
    (field : ∀ name f, s.computed.get? name = some f → (∀ read ∈ f.references, P read) → P name)
    (name : String) : P name := by
  induction hrank : s.rank name using Nat.strongRecOn generalizing name with
  | _ n ih =>
    subst hrank
    cases hf : s.computed.get? name with
    | none => exact raw name hf
    | some f =>
      refine field name f hf fun read hread => ?_
      cases hg : s.computed.get? read with
      | none => exact raw read hg
      | some g =>
        have hlt := h.rank_lt hf read hread (Index.contains_iff.2 ⟨g, hg⟩)
        exact ih _ hlt read rfl

/-- After any operations the order of evaluation of a project is the one that its computed fields
have, whatever led to them.

**Proof sketch.** Only edits of computed fields change the fields or the order, and they compute the
order anew. -/
theorem Registry.order_after (steps : List (String × Registry.Operation)) (project : String) :
    ((Registry.after steps).snapshot project).dependencyGraph.order =
      .ok ((Registry.after steps).snapshot project).evaluationOrder := by
  refine Registry.after_induction (P := fun s => s.dependencyGraph.order = .ok s.evaluationOrder)
    (fun _ => rfl) (fun h hedit => ?_) steps project
  cases hedit with
  | createComputedField compiled free ordered =>
    obtain ⟨order, horder, rfl⟩ := Snapshot.reordered_eq_ok.1 ordered
    exact horder
  | updateComputedField compiled same present ordered =>
    obtain ⟨order, horder, rfl⟩ := Snapshot.reordered_eq_ok.1 ordered
    exact horder
  | deleteComputedField present unused ordered =>
    obtain ⟨order, horder, rfl⟩ := Snapshot.reordered_eq_ok.1 ordered
    exact horder
  | _ => exact h

/-- After any operations all snapshots are ordered. -/
theorem Registry.ordered_after (steps : List (String × Registry.Operation)) (project : String) :
    ((Registry.after steps).snapshot project).Ordered :=
  Registry.after_induction Snapshot.ordered_empty
    (fun h hedit => (h.edits hedit).congr rfl rfl) steps project

end Cohort
