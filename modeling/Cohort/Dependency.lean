set_option autoImplicit false

/-!
# Dependency graphs

A graph of names in which one name reads others. If no name reads itself through others, the names
have an order in which each one comes after those it reads; otherwise a cycle can be shown.

## Main definitions

* `Cohort.Dependency.Graph` — names and who reads whom.
* `Cohort.Dependency.Graph.placement` — the moments at which names are placed one by one.
* `Cohort.Dependency.Graph.order` — the names in an order of evaluation, or a cycle.
-/

namespace Cohort.Dependency

/-- Names and who reads whom. One list of edges is kept for both directions: what a name reads and
who reads it are two views of it, which mirror each other by construction. Two tables that are kept
beside each other, edge by edge, are these views (`Graph.tables_addEdge`). -/
structure Graph where
  /-- The names in the order in which they were added. -/
  nodes : List String
  /-- Who reads whom, in the order in which it was recorded: the reader and what it reads. -/
  edges : List (String × String)
deriving DecidableEq, Repr

namespace Graph

/-- The graph without names. -/
def empty : Graph := ⟨[], []⟩

/-- The graph with a name added at the end, unless it is there. -/
def addNode (g : Graph) (name : String) : Graph :=
  if name ∈ g.nodes then g else { g with nodes := g.nodes ++ [name] }

/-- The graph in which one name reads another. Both are added if they are not there. -/
def addEdge (g : Graph) (reader read : String) : Graph :=
  let g := (g.addNode reader).addNode read
  if (reader, read) ∈ g.edges then g else { g with edges := g.edges ++ [(reader, read)] }

/-- The place of a name among the names. -/
def indexOf? (g : Graph) (name : String) : Option Nat :=
  g.nodes.findIdx? (· = name)

/-- The number of names. -/
def size (g : Graph) : Nat :=
  g.nodes.length

/-- What a name reads. -/
def dependencies (g : Graph) (name : String) : List String :=
  (g.edges.filter (·.1 = name)).map Prod.snd

/-- Who reads a name. -/
def dependents (g : Graph) (name : String) : List String :=
  (g.edges.filter (·.2 = name)).map Prod.fst

/-- The graph of names with what they read, as far as it is among the names. -/
def ofReferences (fields : List (String × List String)) : Graph :=
  let g := fields.foldl (fun g field => g.addNode field.1) empty
  fields.foldl (fun g field =>
    field.2.foldl (fun g read => if read ∈ g.nodes then g.addEdge field.1 read else g) g) g

/-! ### Order -/

/-- A moment at which names are placed one by one. -/
structure Placement where
  /-- The names that can be placed next. -/
  queue : List String
  /-- The names placed so far, last first. -/
  placed : List String
  /-- For every name the count of the names that it reads and that are still to be placed. -/
  remaining : String → Int

/-- The moment after a reader has one name less to wait for. It is queued up if none is left. -/
def Placement.release (p : Placement) (reader : String) : Placement :=
  let left := p.remaining reader - 1
  { p with
    queue := if left = 0 then p.queue ++ [reader] else p.queue
    remaining := fun name => if name = reader then left else p.remaining name }

/-- The first moment: the names that read nothing are queued up. -/
def start (g : Graph) : Placement :=
  let remaining : String → Int := fun name => (g.dependencies name).length
  ⟨g.nodes.filter fun name => remaining name = 0, [], remaining⟩

/-- The moment after the name in front of the queue is placed and those who read it have one name
less to wait for. -/
def place (g : Graph) (p : Placement) : Placement :=
  match p.queue with
  | [] => p
  | name :: queue =>
    (g.dependents name).foldl Placement.release ⟨queue, name :: p.placed, p.remaining⟩

/-- The moment after a number of steps. -/
def placement (g : Graph) : (steps : Nat) → Placement
  | 0 => g.start
  | steps + 1 => g.place (g.placement steps)

/-- Goes from a name to the first name it reads among `stuck`, until a name comes up again. The
names gone through are listed last first. -/
def walk (g : Graph) (stuck : List String) : (steps : Nat) → (path : List String) → List String
  | 0, path => path.reverse
  | _, [] => []
  | steps + 1, name :: path =>
    match (g.dependencies name).find? (· ∈ stuck) with
    | none => (name :: path).reverse
    | some next =>
      if next ∈ name :: path then
        ((name :: path).reverse.dropWhile (· ≠ next)) ++ [next]
      else walk g stuck steps (next :: name :: path)

/-- A cycle among names that cannot be placed: each reads the next, and the last is the first. -/
def cycleAmong (g : Graph) (stuck : List String) : List String :=
  match stuck with
  | [] => []
  | start :: _ => g.walk stuck g.size [start]

/-- The names in an order in which each comes after those it reads, or a cycle if there is none.
Names that became free earlier come before those that did later. -/
def order (g : Graph) : Except (List String) (List String) :=
  let last := g.placement g.size
  if last.placed.length = g.size then .ok last.placed.reverse
  else .error (g.cycleAmong (g.nodes.filter fun name => 0 < last.remaining name))

end Graph

end Cohort.Dependency
