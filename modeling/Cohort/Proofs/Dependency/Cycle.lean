import Mathlib.Logic.Relation
import Mathlib.Order.WellFoundedSet
import Cohort.Proofs.Dependency.Order
set_option relaxedAutoImplicit false
set_option autoImplicit false

/-!
# Orders and cycles

Graphs are built from references, or name by name and edge by edge, with names and edges that may
come again and with names that read themselves. Whatever is put into a graph, it has an order if
and only if no name reads itself through others: names that can be ordered cannot go round in a
circle, and finitely many names that read one another without a circle cannot do so without end.

## Main definitions

* `Cohort.Dependency.Graph.built` — the graph of references and additions.
* `Cohort.Dependency.Graph.Mentions`, `Cohort.Dependency.Graph.Reads` — the names that were put into
  a graph, and which of them read which.

## Main results

* `Cohort.Dependency.Graph.mem_nodes_built`, `Cohort.Dependency.Graph.mem_edges_built` — a built
  graph holds what was put into it.
* `Cohort.Dependency.Graph.order_decides_acyclicity` — there is an order if and only if there is no
  cycle, and then each name comes once and after those that it reads.
-/

namespace Cohort.Dependency.Graph

/-! ### What is put into a graph -/

/-- What can be added to a graph. -/
inductive Addition where
  /-- A name. -/
  | node (name : String)
  /-- That one name reads another. -/
  | edge (reader read : String)

/-- The names of an addition. -/
def Addition.names : Addition → List String
  | .node name => [name]
  | .edge reader read => [reader, read]

/-- The graph with an addition. -/
def add (g : Graph) : Addition → Graph
  | .node name => g.addNode name
  | .edge reader read => g.addEdge reader read

/-- The graph of references, with additions one after the other. Without references these start
from the graph without names. -/
def built (fields : List (String × List String)) (additions : List Addition) : Graph :=
  additions.foldl add (ofReferences fields)

section Built

variable (fields : List (String × List String)) (additions : List Addition)

/-- Whether references and additions put a name into a graph. -/
def Mentions (name : String) : Prop :=
  name ∈ fields.map Prod.fst ∨ ∃ a ∈ additions, name ∈ a.names

/-- Which name reads which according to references and additions. A reference to something that is
none of the names that have references does not count. -/
inductive Reads : String → String → Prop
  | reference {reader read : String} {reads : List String} (field : (reader, reads) ∈ fields)
      (mem : read ∈ reads) (known : read ∈ fields.map Prod.fst) : Reads reader read
  | addition {reader read : String} (mem : .edge reader read ∈ additions) : Reads reader read

end Built

/-! ### What a built graph holds -/

/-- An addition keeps a graph well-formed. -/
lemma WellFormed.add {g : Graph} (h : g.WellFormed) (a : Addition) : (g.add a).WellFormed := by
  cases a with
  | node name => exact h.addNode name
  | edge reader read => exact h.addEdge reader read

/-- An addition records the names that it mentions. -/
lemma mem_nodes_add {g : Graph} {a : Addition} {name : String} :
    name ∈ (g.add a).nodes ↔ name ∈ g.nodes ∨ name ∈ a.names := by
  cases a with
  | node _ => simp [add, Addition.names]
  | edge _ _ => simp [add, Addition.names]

/-- Only the addition of an edge records one. -/
lemma mem_edges_add {g : Graph} {a : Addition} {reader read : String} :
    (reader, read) ∈ (g.add a).edges ↔ (reader, read) ∈ g.edges ∨ a = .edge reader read := by
  cases a with
  | node _ => simp [add]
  | edge _ _ => simp [add, eq_comm]

/-- The last addition is made to the graph of those before it. -/
lemma built_concat (fields : List (String × List String)) (additions : List Addition)
    (a : Addition) : built fields (additions ++ [a]) = (built fields additions).add a := by
  simp [built, List.foldl_append]

variable {fields : List (String × List String)} {additions : List Addition}

/-- Whatever is put into a graph, it is well-formed. -/
theorem wellFormed_built (fields : List (String × List String)) (additions : List Addition) :
    (built fields additions).WellFormed := by
  induction additions using List.reverseRecOn with
  | nil => exact wellFormed_ofReferences fields
  | append_singleton additions a ih =>
    rw [built_concat]
    exact ih.add a

/-- The nodes of a built graph are the names that were put into it. -/
theorem mem_nodes_built {name : String} :
    name ∈ (built fields additions).nodes ↔ Mentions fields additions name := by
  induction additions using List.reverseRecOn with
  | nil => simp [built, Mentions, mem_nodes_ofReferences]
  | append_singleton additions a ih =>
    rw [built_concat, mem_nodes_add, ih]
    simp [Mentions, or_and_right, exists_or, or_assoc]

/-- Without additions, a name reads another one if the references say so. -/
lemma reads_nil {reader read : String} :
    Reads fields [] reader read ↔ (reader, read) ∈ (ofReferences fields).edges := by
  rw [mem_edges_ofReferences]
  constructor
  · rintro (⟨hfield, hread, hknown⟩ | ⟨⟨⟩⟩)
    exact ⟨⟨_, hfield, rfl, hread⟩, hknown⟩
  · rintro ⟨⟨⟨_, reads⟩, hfield, rfl, hread⟩, hknown⟩
    exact .reference hfield hread hknown

/-- An addition makes a name read another one only if it is this edge. -/
lemma reads_concat {a : Addition} {reader read : String} :
    Reads fields (additions ++ [a]) reader read ↔
      Reads fields additions reader read ∨ a = .edge reader read := by
  constructor
  · rintro (⟨hfield, hread, hknown⟩ | hmem)
    · exact .inl (.reference hfield hread hknown)
    · rcases List.mem_append.1 hmem with hmem | hmem
      · exact .inl (.addition hmem)
      · exact .inr (List.mem_singleton.1 hmem).symm
  · rintro ((⟨hfield, hread, hknown⟩ | hmem) | rfl)
    · exact .reference hfield hread hknown
    · exact .addition (List.mem_append_left _ hmem)
    · exact .addition (by simp)

/-- The edges of a built graph are those that were put into it. -/
theorem mem_edges_built {reader read : String} :
    (reader, read) ∈ (built fields additions).edges ↔ Reads fields additions reader read := by
  induction additions using List.reverseRecOn with
  | nil => exact reads_nil.symm
  | append_singleton additions a ih => rw [built_concat, mem_edges_add, ih, reads_concat]

/-! ### Cycles -/

/-- In a graph that has an order no name reads itself through others: along what a name reads, the
places in the order go down. -/
lemma not_transGen_self_of_order {g : Graph} (hg : g.WellFormed) {names : List String}
    (h : g.order = .ok names) (name : String) :
    ¬ Relation.TransGen (fun reader read => (reader, read) ∈ g.edges) name name := by
  have hdown : ∀ {reader read : String},
      Relation.TransGen (fun reader read => (reader, read) ∈ g.edges) reader read →
        names.idxOf read < names.idxOf reader := by
    intro reader read hpath
    induction hpath with
    | single hedge => exact idxOf_lt_of_order_eq_ok hg h hedge
    | tail _ hedge ih => exact lt_trans (idxOf_lt_of_order_eq_ok hg h hedge) ih
  exact fun hcycle => lt_irrefl _ (hdown hcycle)

/-- In a graph without a cycle no name reads others without end.

**Proof sketch.** "Reads through others" is transitive, and irreflexive for want of a cycle. All
edges run between the nodes, and there are finitely many of those. -/
lemma WellFormed.wellFounded_of_acyclic {g : Graph} (hg : g.WellFormed)
    (h : ∀ name, ¬ Relation.TransGen (fun reader read => (reader, read) ∈ g.edges) name name) :
    WellFounded fun read reader => (reader, read) ∈ g.edges := by
  have hirrefl : Std.Irrefl (Relation.TransGen fun read reader => (reader, read) ∈ g.edges) :=
    ⟨fun name hcycle => h name (Relation.transGen_swap.1 hcycle)⟩
  have hstrict : IsStrictOrder String
      (Relation.TransGen fun read reader => (reader, read) ∈ g.edges) := {}
  have hnodes := (List.finite_toSet g.nodes).wellFoundedOn
    (r := Relation.TransGen fun read reader => (reader, read) ∈ g.edges)
  refine Subrelation.wf (fun {read reader} hedge => ?_) (Set.wellFoundedOn_iff.1 hnodes)
  have hmem := hg.mem_nodes _ hedge
  exact ⟨.single hedge, hmem.2, hmem.1⟩

/-- Whatever references and additions a graph is built from, repeated ones and names that read
themselves among them:

* it has an order if and only if no name reads itself, directly or through others;
* an order lists every name that was put into the graph once, and each one after the names that it
  reads;
* while an order is looked for no count of names to wait for is ever below zero;
* the search has ended when as many steps were made as there are names.

The counts only ever go down, so if none is below zero at the end of a step none was within it.

**Proof sketch.** Every moment of placing is orderly, so each count is a number of names. Along what
a name reads the places in an order go down, so an ordered graph has no cycle. In a graph without
one, "is read by" is well-founded, and all names are placed by induction along it. -/
theorem order_decides_acyclicity (fields : List (String × List String))
    (additions : List Addition) :
    let g := built fields additions
    ((∃ names, g.order = .ok names) ↔
      ¬ ∃ name, Relation.TransGen (Reads fields additions) name name) ∧
      (∀ names, g.order = .ok names →
        names.Nodup ∧ (∀ name, name ∈ names ↔ Mentions fields additions name) ∧
          ∀ reader read, Reads fields additions reader read →
            names.idxOf read < names.idxOf reader) ∧
      (∀ steps name, 0 ≤ (g.placement steps).remaining name) ∧
      (g.placement g.size).queue = [] := by
  intro g
  have hg : g.WellFormed := wellFormed_built fields additions
  have hreads : Reads fields additions = fun reader read => (reader, read) ∈ g.edges := by
    funext reader read
    exact propext mem_edges_built.symm
  refine ⟨⟨?_, ?_⟩, ?_, ?_, queue_placement_size hg⟩
  · rintro ⟨names, hnames⟩ ⟨name, hcycle⟩
    rw [hreads] at hcycle
    exact not_transGen_self_of_order hg hnames name hcycle
  · intro hacyclic
    rw [hreads] at hacyclic
    exact exists_order hg (hg.wellFounded_of_acyclic fun name hcycle => hacyclic ⟨name, hcycle⟩)
  · intro names hnames
    have hperm := perm_of_order_eq_ok hg hnames
    refine ⟨hperm.nodup_iff.2 hg.nodes_nodup, fun name => ?_, fun reader read hread => ?_⟩
    · rw [hperm.mem_iff]
      exact mem_nodes_built
    · exact idxOf_lt_of_order_eq_ok hg hnames (mem_edges_built.2 hread)
  · intro steps name
    rw [(orderly_placement hg steps).remaining name]
    exact Int.natCast_nonneg _

/-- A label that mentions the visits of a customer twice, and the edge between them once more. -/
theorem label_after_visits :
    (built [("label", ["visits", "plan", "visits"]), ("visits", [])]
      [.edge "label" "visits", .node "label", .edge "visits" "logins"]).order =
        .ok ["logins", "visits", "label"] ∧
      ["logins", "visits", "label"].idxOf "visits" <
        ["logins", "visits", "label"].idxOf "label" := by
  have horder : (built [("label", ["visits", "plan", "visits"]), ("visits", [])]
      [.edge "label" "visits", .node "label", .edge "visits" "logins"]).order =
        .ok ["logins", "visits", "label"] := by decide +kernel
  obtain ⟨-, hlists, -⟩ := order_decides_acyclicity
    [("label", ["visits", "plan", "visits"]), ("visits", [])]
    [.edge "label" "visits", .node "label", .edge "visits" "logins"]
  exact ⟨horder, (hlists _ horder).2.2 "label" "visits" (.addition (by simp))⟩

end Cohort.Dependency.Graph
