import Mathlib.Data.List.Nodup
import Mathlib.Tactic.Lemma
import Cohort.Dependency
set_option relaxedAutoImplicit false
set_option autoImplicit false

/-!
# Graphs built from references

Graphs are built name by name and edge by edge. However that is done, no name and no edge is
recorded twice, and every edge runs between recorded names. A graph of references has the submitted
names as its nodes, and an edge wherever one of them refers to another.

A graph keeps its edges in one list. Whoever keeps two tables instead, one of what each name reads
and one of who reads it, has the same in them after the same additions.

## Main definitions

* `Cohort.Dependency.Graph.WellFormed` — what holds of every graph that is built.
* `Cohort.Dependency.Graph.Tables` — what each name reads and who reads it, in two tables.

## Main results

* `Cohort.Dependency.Graph.tables_addNode`, `Cohort.Dependency.Graph.tables_addEdge` — two tables
  grow as the list of edges does.
* `Cohort.Dependency.Graph.tables_mirror` — two tables that are built edge by edge mirror each
  other.
* `Cohort.Dependency.Graph.wellFormed_ofReferences` — a graph of references is well-formed.
* `Cohort.Dependency.Graph.mem_nodes_ofReferences`,
  `Cohort.Dependency.Graph.mem_edges_ofReferences` — its nodes and edges.
-/

namespace Cohort.Dependency.Graph

/-- No name and no edge is recorded twice, and edges run between recorded names. -/
structure WellFormed (g : Graph) : Prop where
  /-- No name is recorded twice. -/
  nodes_nodup : g.nodes.Nodup
  /-- No edge is recorded twice. -/
  edges_nodup : g.edges.Nodup
  /-- Both ends of an edge are recorded. -/
  mem_nodes : ∀ e ∈ g.edges, e.1 ∈ g.nodes ∧ e.2 ∈ g.nodes

/-! ### Names and edges -/

/-- What a name reads is at the other ends of its edges. -/
@[simp] lemma mem_dependencies {g : Graph} {name read : String} :
    read ∈ g.dependencies name ↔ (name, read) ∈ g.edges := by
  simp [dependencies]

/-- Who reads a name is at the other ends of the edges to it. -/
@[simp] lemma mem_dependents {g : Graph} {name reader : String} :
    reader ∈ g.dependents name ↔ (reader, name) ∈ g.edges := by
  simp [dependents]

/-- Nobody is listed twice among those who read a name. -/
lemma WellFormed.nodup_dependents {g : Graph} (h : g.WellFormed) (name : String) :
    (g.dependents name).Nodup := by
  refine (h.edges_nodup.filter _).map_on fun a ha b hb hab => ?_
  simp only [List.mem_filter, decide_eq_true_eq] at ha hb
  exact Prod.ext hab (ha.2.trans hb.2.symm)

/-- Nothing is listed twice among what a name reads. -/
lemma WellFormed.nodup_dependencies {g : Graph} (h : g.WellFormed) (name : String) :
    (g.dependencies name).Nodup := by
  refine (h.edges_nodup.filter _).map_on fun a ha b hb hab => ?_
  simp only [List.mem_filter, decide_eq_true_eq] at ha hb
  exact Prod.ext (ha.2.trans hb.2.symm) hab

/-- A name that is added brings no edge. -/
@[simp] lemma edges_addNode (g : Graph) (name : String) : (g.addNode name).edges = g.edges := by
  unfold addNode
  split <;> rfl

/-- Adding a name records it and no other one. -/
@[simp] lemma mem_nodes_addNode {g : Graph} {name x : String} :
    x ∈ (g.addNode name).nodes ↔ x ∈ g.nodes ∨ x = name := by
  unfold addNode
  split
  case isTrue h =>
    constructor
    · exact Or.inl
    · rintro (hx | rfl)
      · exact hx
      · exact h
  case isFalse => simp

/-- An edge that is added records its two ends, first the reader. -/
lemma nodes_addEdge (g : Graph) (reader read : String) :
    (g.addEdge reader read).nodes = ((g.addNode reader).addNode read).nodes := by
  simp only [addEdge]
  split <;> rfl

/-- An edge is added at the end, unless it is recorded. -/
lemma edges_addEdge (g : Graph) (reader read : String) :
    (g.addEdge reader read).edges =
      if (reader, read) ∈ g.edges then g.edges else g.edges ++ [(reader, read)] := by
  simp only [addEdge, edges_addNode]
  split <;> simp only [edges_addNode]

/-- Adding an edge records its two ends and no other name. -/
@[simp] lemma mem_nodes_addEdge {g : Graph} {reader read x : String} :
    x ∈ (g.addEdge reader read).nodes ↔ x ∈ g.nodes ∨ x = reader ∨ x = read := by
  rw [nodes_addEdge, mem_nodes_addNode, mem_nodes_addNode, or_assoc]

/-- Adding an edge records it and no other one. -/
@[simp] lemma mem_edges_addEdge {g : Graph} {reader read : String} {e : String × String} :
    e ∈ (g.addEdge reader read).edges ↔ e ∈ g.edges ∨ e = (reader, read) := by
  rw [edges_addEdge]
  split
  case isTrue h =>
    constructor
    · exact Or.inl
    · rintro (he | rfl)
      · exact he
      · exact h
  case isFalse => simp

/-! ### Two tables -/

/-- What each name reads and who reads it, in two tables. -/
structure Tables where
  /-- What a name reads. -/
  reads : String → List String
  /-- Who reads a name. -/
  readers : String → List String

/-- The tables without an edge. -/
def Tables.empty : Tables := ⟨fun _ => [], fun _ => []⟩

/-- The tables with an edge entered in both, unless the reader is known to read the name. -/
def Tables.add (t : Tables) (reader read : String) : Tables :=
  if read ∈ t.reads reader then t
  else
    { reads := fun name => if name = reader then t.reads name ++ [read] else t.reads name
      readers := fun name => if name = read then t.readers name ++ [reader] else t.readers name }

/-- The two tables of a graph. -/
def tables (g : Graph) : Tables := ⟨g.dependencies, g.dependents⟩

/-- A name that is added leaves the tables as they are. -/
lemma tables_addNode (g : Graph) (name : String) : (g.addNode name).tables = g.tables := by
  have hreads : (g.addNode name).dependencies = g.dependencies := by
    funext x
    unfold dependencies
    rw [edges_addNode]
  have hreaders : (g.addNode name).dependents = g.dependents := by
    funext x
    unfold dependents
    rw [edges_addNode]
  rw [tables, tables, hreads, hreaders]

/-- An edge that is added makes its reader read one name more, unless it was recorded. -/
lemma dependencies_addEdge (g : Graph) (reader read name : String) :
    (g.addEdge reader read).dependencies name =
      if (reader, read) ∉ g.edges ∧ name = reader then g.dependencies name ++ [read]
      else g.dependencies name := by
  unfold dependencies
  rw [edges_addEdge]
  by_cases hedge : (reader, read) ∈ g.edges
  · simp [hedge]
  · by_cases hname : name = reader
    · simp [hedge, hname]
    · simp [hedge, hname, Ne.symm hname]

/-- An edge that is added gives the name read one reader more, unless it was recorded. -/
lemma dependents_addEdge (g : Graph) (reader read name : String) :
    (g.addEdge reader read).dependents name =
      if (reader, read) ∉ g.edges ∧ name = read then g.dependents name ++ [reader]
      else g.dependents name := by
  unfold dependents
  rw [edges_addEdge]
  by_cases hedge : (reader, read) ∈ g.edges
  · simp [hedge]
  · by_cases hname : name = read
    · simp [hedge, hname]
    · simp [hedge, hname, Ne.symm hname]

/-- An edge that is added is entered in both tables.

**Proof sketch.** Whether the reader is known to read the name is read off the first table and means
that the edge is recorded. So both tables change, or neither does. -/
theorem tables_addEdge (g : Graph) (reader read : String) :
    (g.addEdge reader read).tables = g.tables.add reader read := by
  have hreads := funext (dependencies_addEdge g reader read)
  have hreaders := funext (dependents_addEdge g reader read)
  have hrecorded : read ∈ g.tables.reads reader ↔ (reader, read) ∈ g.edges := mem_dependencies
  rw [tables, hreads, hreaders, Tables.add]
  by_cases hedge : (reader, read) ∈ g.edges
  · rw [if_pos (hrecorded.2 hedge)]
    simp [tables, hedge]
  · rw [if_neg (hrecorded.not.2 hedge)]
    simp [tables, hedge]

/-- Two tables that are built edge by edge mirror each other: what a name reads has it among its
readers, and nothing else has.

**Proof sketch.** They are the tables of the graph with these edges, which keeps one list. -/
theorem tables_mirror (edges : List (String × String)) (reader read : String) :
    let t := edges.foldl (fun t e => t.add e.1 e.2) Tables.empty
    read ∈ t.reads reader ↔ reader ∈ t.readers read := by
  intro t
  have htables : ∀ g : Graph, edges.foldl (fun t e => t.add e.1 e.2) g.tables =
      (edges.foldl (fun g e => g.addEdge e.1 e.2) g).tables := by
    induction edges with
    | nil => exact fun _ => rfl
    | cons e edges ih =>
      intro g
      rw [List.foldl_cons, List.foldl_cons, ← tables_addEdge]
      exact ih (g.addEdge e.1 e.2)
  have ht : t = (edges.foldl (fun g e => g.addEdge e.1 e.2) empty).tables := htables empty
  rw [ht]
  exact mem_dependencies.trans mem_dependents.symm

/-! ### What building keeps -/

/-- The graph without names is well-formed. -/
lemma wellFormed_empty : empty.WellFormed where
  nodes_nodup := List.nodup_nil
  edges_nodup := List.nodup_nil
  mem_nodes := by simp [empty]

/-- Adding a name keeps a graph well-formed.

**Proof sketch.** The new name was not among the names, and the edges stay as they are. -/
lemma WellFormed.addNode {g : Graph} (h : g.WellFormed) (name : String) :
    (g.addNode name).WellFormed where
  nodes_nodup := by
    unfold Graph.addNode
    split
    case isTrue => exact h.nodes_nodup
    case isFalse hname =>
      exact List.nodup_append.2 ⟨h.nodes_nodup, List.nodup_singleton _, fun a ha b hb hab =>
        hname (List.mem_singleton.1 hb ▸ hab ▸ ha)⟩
  edges_nodup := by
    rw [edges_addNode]
    exact h.edges_nodup
  mem_nodes := fun e he => by
    rw [edges_addNode] at he
    obtain ⟨h1, h2⟩ := h.mem_nodes e he
    exact ⟨mem_nodes_addNode.2 (.inl h1), mem_nodes_addNode.2 (.inl h2)⟩

/-- Adding an edge keeps a graph well-formed.

**Proof sketch.** The new edge was not among the edges, and its ends are recorded with it. -/
lemma WellFormed.addEdge {g : Graph} (h : g.WellFormed) (reader read : String) :
    (g.addEdge reader read).WellFormed where
  nodes_nodup := by
    rw [nodes_addEdge]
    exact ((h.addNode reader).addNode read).nodes_nodup
  edges_nodup := by
    rw [edges_addEdge]
    split
    case isTrue => exact h.edges_nodup
    case isFalse hedge =>
      exact List.nodup_append.2 ⟨h.edges_nodup, List.nodup_singleton _, fun a ha b hb hab =>
        hedge (List.mem_singleton.1 hb ▸ hab ▸ ha)⟩
  mem_nodes := fun e he => by
    rw [mem_edges_addEdge] at he
    rw [mem_nodes_addEdge, mem_nodes_addEdge]
    rcases he with he | rfl
    · exact ⟨.inl (h.mem_nodes e he).1, .inl (h.mem_nodes e he).2⟩
    · exact ⟨.inr (.inl rfl), .inr (.inr rfl)⟩

/-! ### Graphs of references -/

/-- The graph in which a name reads those of some names that are recorded. -/
def addReads (g : Graph) (reader : String) (reads : List String) : Graph :=
  reads.foldl (fun g read => if read ∈ g.nodes then g.addEdge reader read else g) g

/-- A graph of references records the names first and then what each of them reads. -/
lemma ofReferences_eq (fields : List (String × List String)) :
    ofReferences fields = fields.foldl (fun g field => g.addReads field.1 field.2)
      (fields.foldl (fun g field => g.addNode field.1) empty) := rfl

/-- Recording what a name reads keeps a graph well-formed.

**Proof sketch.** Induction on what is read. Each name is added by an edge or left out. -/
lemma WellFormed.addReads {g : Graph} (h : g.WellFormed) (reader : String) (reads : List String) :
    (g.addReads reader reads).WellFormed := by
  unfold Graph.addReads
  induction reads generalizing g with
  | nil => exact h
  | cons read reads ih =>
    rw [List.foldl_cons]
    split
    · exact ih (h.addEdge reader read)
    · exact ih h

/-- What a recorded name reads records no further names.

**Proof sketch.** Induction on what the name reads. An edge records its ends, which are both
recorded already. -/
lemma mem_nodes_addReads {g : Graph} {reader x : String} {reads : List String}
    (hreader : reader ∈ g.nodes) : x ∈ (g.addReads reader reads).nodes ↔ x ∈ g.nodes := by
  unfold addReads
  induction reads generalizing g with
  | nil => rfl
  | cons read reads ih =>
    rw [List.foldl_cons]
    split
    case isTrue hread =>
      rw [ih (mem_nodes_addEdge.2 (.inl hreader)), mem_nodes_addEdge]
      constructor
      · rintro (hx | rfl | rfl)
        · exact hx
        · exact hreader
        · exact hread
      · exact Or.inl
    case isFalse => exact ih hreader

/-- What a recorded name reads is recorded as far as it is among the names.

**Proof sketch.** Induction on what the name reads. If it is among the names it gets an edge, and
the names stay the same; otherwise it is left out. -/
lemma mem_edges_addReads {g : Graph} {reader : String} {reads : List String}
    (hreader : reader ∈ g.nodes) {e : String × String} :
    e ∈ (g.addReads reader reads).edges ↔
      e ∈ g.edges ∨ e.1 = reader ∧ e.2 ∈ reads ∧ e.2 ∈ g.nodes := by
  unfold addReads
  induction reads generalizing g with
  | nil => simp
  | cons read reads ih =>
    rw [List.foldl_cons]
    split
    case isTrue hread =>
      -- both ends of the edge are names already
      have hnodes : e.2 ∈ (g.addEdge reader read).nodes ↔ e.2 ∈ g.nodes :=
        mem_nodes_addEdge.trans ⟨fun h => by
          rcases h with h | h | h
          · exact h
          · exact h ▸ hreader
          · exact h ▸ hread, Or.inl⟩
      rw [ih (mem_nodes_addEdge.2 (.inl hreader)), mem_edges_addEdge, hnodes, List.mem_cons,
        Prod.ext_iff]
      constructor
      · rintro ((he | ⟨h1, h2⟩) | ⟨h1, h2, h3⟩)
        · exact .inl he
        · exact .inr ⟨h1, .inl h2, h2 ▸ hread⟩
        · exact .inr ⟨h1, .inr h2, h3⟩
      · rintro (he | ⟨h1, h2 | h2, h3⟩)
        · exact .inl (.inl he)
        · exact .inl (.inr ⟨h1, h2⟩)
        · exact .inr ⟨h1, h2, h3⟩
    case isFalse hread =>
      rw [ih hreader, List.mem_cons]
      constructor
      · rintro (he | ⟨h1, h2, h3⟩)
        · exact .inl he
        · exact .inr ⟨h1, .inr h2, h3⟩
      · rintro (he | ⟨h1, h2 | h2, h3⟩)
        · exact .inl he
        · exact absurd (h2 ▸ h3) hread
        · exact .inr ⟨h1, h2, h3⟩

/-- The names recorded first. -/
lemma foldl_addNode_spec (fields : List (String × List String)) {g : Graph} (h : g.WellFormed) :
    (fields.foldl (fun g field => g.addNode field.1) g).WellFormed ∧
      (fields.foldl (fun g field => g.addNode field.1) g).edges = g.edges ∧
      ∀ x, x ∈ (fields.foldl (fun g field => g.addNode field.1) g).nodes ↔
        x ∈ g.nodes ∨ x ∈ fields.map Prod.fst := by
  induction fields generalizing g with
  | nil => exact ⟨h, rfl, by simp⟩
  | cons field fields ih =>
    obtain ⟨hwf, hedges, hnodes⟩ := ih (h.addNode field.1)
    rw [List.foldl_cons]
    refine ⟨hwf, hedges.trans (edges_addNode g _), fun x => ?_⟩
    rw [hnodes, mem_nodes_addNode, List.map_cons, List.mem_cons, or_assoc]

/-- What recorded names read.

**Proof sketch.** Induction on the records, where the names of the graph stay the same. -/
lemma foldl_addReads_spec (fields : List (String × List String)) {g : Graph} (h : g.WellFormed)
    (hfields : ∀ field ∈ fields, field.1 ∈ g.nodes) :
    (fields.foldl (fun g field => g.addReads field.1 field.2) g).WellFormed ∧
      (∀ x, x ∈ (fields.foldl (fun g field => g.addReads field.1 field.2) g).nodes ↔
        x ∈ g.nodes) ∧
      ∀ e, e ∈ (fields.foldl (fun g field => g.addReads field.1 field.2) g).edges ↔
        e ∈ g.edges ∨ ∃ field ∈ fields, e.1 = field.1 ∧ e.2 ∈ field.2 ∧ e.2 ∈ g.nodes := by
  induction fields generalizing g with
  | nil => exact ⟨h, fun x => Iff.rfl, by simp⟩
  | cons field fields ih =>
    have hfield : field.1 ∈ g.nodes := hfields field (by simp)
    obtain ⟨hwf, hnodes, hedges⟩ := ih (h.addReads field.1 field.2) fun f hf =>
      (mem_nodes_addReads hfield).2 (hfields f (List.mem_cons_of_mem _ hf))
    rw [List.foldl_cons]
    refine ⟨hwf, fun x => (hnodes x).trans (mem_nodes_addReads hfield), fun e => ?_⟩
    rw [hedges, mem_edges_addReads hfield, mem_nodes_addReads hfield, or_assoc]
    simp only [List.mem_cons, exists_eq_or_imp]

/-- A graph of references is well-formed. -/
theorem wellFormed_ofReferences (fields : List (String × List String)) :
    (ofReferences fields).WellFormed := by
  obtain ⟨hwf, -, hnodes⟩ := foldl_addNode_spec fields wellFormed_empty
  rw [ofReferences_eq]
  exact (foldl_addReads_spec fields hwf fun field hfield =>
    (hnodes _).2 (.inr (List.mem_map_of_mem hfield))).1

/-- The nodes of a graph of references are the names that have references. -/
theorem mem_nodes_ofReferences {fields : List (String × List String)} {x : String} :
    x ∈ (ofReferences fields).nodes ↔ x ∈ fields.map Prod.fst := by
  obtain ⟨hwf, -, hnodes⟩ := foldl_addNode_spec fields wellFormed_empty
  have hreads := (foldl_addReads_spec fields hwf fun field hfield =>
    (hnodes _).2 (.inr (List.mem_map_of_mem hfield))).2.1
  rw [ofReferences_eq, hreads, hnodes]
  simp [empty]

/-- The edges of a graph of references run from each name to those of the names that it refers
to. -/
theorem mem_edges_ofReferences {fields : List (String × List String)} {e : String × String} :
    e ∈ (ofReferences fields).edges ↔
      (∃ field ∈ fields, e.1 = field.1 ∧ e.2 ∈ field.2) ∧ e.2 ∈ fields.map Prod.fst := by
  obtain ⟨hwf, hedges, hnodes⟩ := foldl_addNode_spec fields wellFormed_empty
  have hreads := (foldl_addReads_spec fields hwf fun field hfield =>
    (hnodes _).2 (.inr (List.mem_map_of_mem hfield))).2.2
  rw [ofReferences_eq, hreads, hedges, hnodes]
  constructor
  · rintro (he | ⟨field, hfield, h1, h2, h3⟩)
    · simp [empty] at he
    · exact ⟨⟨field, hfield, h1, h2⟩, h3.resolve_left (by simp [empty])⟩
  · rintro ⟨⟨field, hfield, h1, h2⟩, h3⟩
    exact .inr ⟨field, hfield, h1, h2, .inr h3⟩

end Cohort.Dependency.Graph
