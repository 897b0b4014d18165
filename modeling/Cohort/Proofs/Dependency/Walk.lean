import Mathlib.Data.List.Chain
import Cohort.Proofs.Dependency.Cycle
set_option relaxedAutoImplicit false
set_option autoImplicit false

/-!
# The cycle that is reported

If the names of a graph have no order, some of them cannot be placed, and each of these reads
another one that cannot be placed either. So a walk from one to the next never gets stuck. There are
finitely many of them, so it comes back to a name that it went through, and what lies between is a
cycle. The names before it only lead to the cycle and are cut off.

The walk is described by how it goes on and how it closes, and by nothing else: that it closes is to
say that it ends, and that it ends neither at a name that leads nowhere nor because of the bound on
its steps.

## Main definitions

* `Cohort.Dependency.Graph.stuck` — the names that cannot be placed.
* `Cohort.Dependency.Graph.Closes` — a walk that comes back to a name, and what it then reports.
* `Cohort.Dependency.Graph.Trail` — what holds of the names that a walk went through.
* `Cohort.Dependency.Circular` — names of which each reads the next and the last is the first.

## Main results

* `Cohort.Dependency.Graph.exists_stuck_read` — what cannot be placed reads what cannot be placed.
* `Cohort.Dependency.Graph.Trail.exists_closes` — every walk closes.
* `Cohort.Dependency.Graph.Closes.walk_eq` — the bound on the steps of a walk has no influence.
* `Cohort.Dependency.Graph.Closes.circular` — what it then reports is a cycle.
* `Cohort.Dependency.Graph.order_error_circular` — a graph without an order is refused with a cycle.
-/

namespace Cohort.Dependency

/-- Names that go round in a circle: each reads the next, the last is the first, and otherwise none
comes twice. -/
structure Circular (reads : String → String → Prop) (names : List String) : Prop where
  /-- There are at least two entries: a name that reads itself is listed twice. -/
  length : 2 ≤ names.length
  /-- The last entry is the first. -/
  closed : names.head? = names.getLast?
  /-- Apart from the last entry no name comes twice. -/
  nodup : names.dropLast.Nodup
  /-- Each name reads the next one. -/
  chain : names.IsChain reads

namespace Graph

/-! ### Names that cannot be placed -/

/-- The names that still have to wait for others in the end. -/
def stuck (g : Graph) : List String :=
  g.nodes.filter fun name => 0 < (g.placement g.size).remaining name

/-- The names that have to wait in the end are those that are not placed.

**Proof sketch.** Whoever is placed has all that it reads placed, and waits for nothing. Whoever
waits for nothing in the end was placed. -/
lemma mem_stuck {g : Graph} (hg : g.WellFormed) {name : String} :
    name ∈ g.stuck ↔ name ∈ g.nodes ∧ name ∉ (g.placement g.size).placed := by
  obtain ⟨hplacing, -, hremaining⟩ := orderly_placement hg g.size
  unfold stuck
  rw [List.mem_filter, decide_eq_true_eq, hremaining]
  refine and_congr_right fun hname => ?_
  constructor
  · intro hpositive hplaced
    have hmissing : g.missing (g.placement g.size).placed name = 0 :=
      missing_eq_zero.2 fun read hread => hplacing.settled.mem_of_mem hplaced hread
    omega
  · intro hplaced
    have hmissing : g.missing (g.placement g.size).placed name ≠ 0 := fun hzero =>
      hplaced (mem_placed_of_reads hg hname (missing_eq_zero.1 hzero))
    omega

/-- A name that cannot be placed reads one that cannot be placed. -/
theorem exists_stuck_read {g : Graph} (hg : g.WellFormed) {name : String} (h : name ∈ g.stuck) :
    ∃ read ∈ g.dependencies name, read ∈ g.stuck := by
  obtain ⟨hname, hplaced⟩ := (mem_stuck hg).1 h
  by_contra hnone
  push Not at hnone
  apply hplaced
  apply mem_placed_of_reads hg hname
  intro read hread
  have hnode : read ∈ g.nodes := (hg.mem_nodes _ (mem_dependencies.1 hread)).2
  by_contra hnot
  exact hnone read hread ((mem_stuck hg).2 ⟨hnode, hnot⟩)

/-- If there is no order then some name cannot be placed.

**Proof sketch.** Otherwise all names are placed, and they have an order. -/
lemma stuck_ne_nil {g : Graph} (hg : g.WellFormed) {cycle : List String}
    (h : g.order = .error cycle) : g.stuck ≠ [] := by
  intro hnil
  have hsubset : g.nodes ⊆ (g.placement g.size).placed := by
    intro name hname
    by_contra hplaced
    have hstuck : name ∈ g.stuck := (mem_stuck hg).2 ⟨hname, hplaced⟩
    rw [hnil] at hstuck
    cases hstuck
  obtain ⟨names, hnames⟩ := exists_order_of_subset hg hsubset
  rw [hnames] at h
  cases h

/-- What is reported if there is no order is found among the names that cannot be placed. -/
lemma order_eq_error {g : Graph} {cycle : List String} (h : g.order = .error cycle) :
    cycle = g.cycleAmong g.stuck := by
  simp only [order] at h
  split at h
  case isTrue => cases h
  case isFalse => exact (Except.error.inj h).symm

/-! ### Walks -/

/-- A walk from the name in front of a path, which lists the names gone through last first. It goes
on to the first name that is read and cannot be placed, and closes when it went through that one
already; what it reports then is the part of the path from there on, with the name once more. -/
inductive Closes (g : Graph) : (path cycle : List String) → Prop
  | goesOn {name next : String} {path cycle : List String}
      (reads : (g.dependencies name).find? (· ∈ g.stuck) = some next) (new : next ∉ name :: path)
      (rest : Closes g (next :: name :: path) cycle) : Closes g (name :: path) cycle
  | closes {name next : String} {path before after : List String}
      (reads : (g.dependencies name).find? (· ∈ g.stuck) = some next)
      (met : (name :: path).reverse = before ++ next :: after) (first : next ∉ before) :
      Closes g (name :: path) (next :: after ++ [next])

/-- What holds of the names that a walk went through, listed last first. -/
structure Trail (g : Graph) (path : List String) : Prop where
  /-- No name was met twice. -/
  nodup : path.Nodup
  /-- None of them can be placed. -/
  mem_stuck : ∀ name ∈ path, name ∈ g.stuck
  /-- Each name was read by the one met before it. -/
  chain : path.reverse.IsChain fun reader read => (reader, read) ∈ g.edges

namespace Trail

variable {g : Graph} {name next : String} {path : List String}

/-- In the beginning one name was met. -/
lemma start (h : name ∈ g.stuck) : g.Trail [name] where
  nodup := List.nodup_singleton name
  mem_stuck := fun x hx => List.mem_singleton.1 hx ▸ h
  chain := by simp

/-- Names of which each reads the next are followed by one that the last of them reads. -/
lemma chain_concat (h : g.Trail (name :: path)) (hedge : (name, next) ∈ g.edges) :
    ((name :: path).reverse ++ [next]).IsChain fun reader read => (reader, read) ∈ g.edges := by
  rw [List.isChain_append]
  refine ⟨h.chain, by simp, fun x hx y hy => ?_⟩
  rw [List.getLast?_reverse, List.head?_cons, Option.mem_some_iff] at hx
  rw [List.head?_cons, Option.mem_some_iff] at hy
  subst hx hy
  exact hedge

/-- Going on to a name that was not met yet keeps the invariant.

**Proof sketch.** The next name is stuck, read by the last one, and new by assumption. -/
lemma goesOn (h : g.Trail (name :: path))
    (hreads : (g.dependencies name).find? (· ∈ g.stuck) = some next) (hnew : next ∉ name :: path) :
    g.Trail (next :: name :: path) where
  nodup := List.nodup_cons.2 ⟨hnew, h.nodup⟩
  mem_stuck := by
    intro x hx
    rcases List.mem_cons.1 hx with rfl | hx
    · have hstuck := List.find?_some hreads
      simpa using hstuck
    · exact h.mem_stuck x hx
  chain := by
    have hedge : (name, next) ∈ g.edges := mem_dependencies.1 (List.mem_of_find?_eq_some hreads)
    rw [List.reverse_cons]
    exact h.chain_concat hedge

/-- A walk went through at most as many names as there are. -/
lemma length_le (h : g.Trail path) : path.length ≤ g.size := by
  have hsubset : path ⊆ g.nodes := fun x hx => List.mem_of_mem_filter (h.mem_stuck x hx)
  exact (List.subperm_of_subset h.nodup hsubset).length_le

/-- A walk finds a name to go on to. -/
lemma exists_reads (hg : g.WellFormed) (h : g.Trail (name :: path)) :
    ∃ next, (g.dependencies name).find? (· ∈ g.stuck) = some next := by
  obtain ⟨read, hread, hstuck⟩ := exists_stuck_read hg (h.mem_stuck name List.mem_cons_self)
  rw [← Option.isSome_iff_exists, List.find?_isSome]
  exact ⟨read, hread, by simpa using hstuck⟩

/-- A walk that comes to a name which it went through closes there. -/
lemma closes (hreads : (g.dependencies name).find? (· ∈ g.stuck) = some next)
    (hmet : next ∈ name :: path) : ∃ cycle, g.Closes (name :: path) cycle := by
  obtain ⟨before, after, hcut, hfirst⟩ := List.eq_append_cons_of_mem (List.mem_reverse.2 hmet)
  exact ⟨_, .closes hreads hcut hfirst⟩

/-- Every walk closes.

**Proof sketch.** Induction on the number of names that were not met. The walk finds a name to go on
to. If it was met, then the walk closes there; if not, then one name less is left to be met. -/
theorem exists_closes (hg : g.WellFormed) (h : g.Trail (name :: path)) :
    ∃ cycle, g.Closes (name :: path) cycle := by
  have hlength := h.length_le
  obtain ⟨room, hroom⟩ : ∃ room, g.size = (name :: path).length + room :=
    ⟨g.size - (name :: path).length, by omega⟩
  induction room generalizing name path with
  | zero =>
    obtain ⟨next, hreads⟩ := h.exists_reads hg
    have hmet : next ∈ name :: path := by
      by_contra hnew
      have hlonger := (h.goesOn hreads hnew).length_le
      rw [List.length_cons] at hlonger
      omega
    exact closes hreads hmet
  | succ room ih =>
    obtain ⟨next, hreads⟩ := h.exists_reads hg
    by_cases hmet : next ∈ name :: path
    · exact closes hreads hmet
    · have hnext := h.goesOn hreads hmet
      have hless : g.size = (next :: name :: path).length + room := by
        rw [List.length_cons]
        omega
      obtain ⟨cycle, hcycle⟩ := ih hnext hnext.length_le hless
      exact ⟨cycle, .goesOn hreads hmet hcycle⟩

end Trail

namespace Closes

variable {g : Graph} {path cycle : List String}

/-- What a walk reports when it closes is a cycle.

**Proof sketch.** The names from the first meeting on are the end of what the walk went through.
Each of them reads the next, and the last of them reads the name that was met again. -/
theorem circular (h : g.Closes path cycle) (htrail : g.Trail path) :
    Circular (fun reader read => (reader, read) ∈ g.edges) cycle := by
  induction h with
  | goesOn hreads hnew _ ih => exact ih (htrail.goesOn hreads hnew)
  | @closes name next path before after hreads hmet _ =>
    have hedge : (name, next) ∈ g.edges := mem_dependencies.1 (List.mem_of_find?_eq_some hreads)
    have hchain := htrail.chain_concat hedge
    rw [hmet, List.append_assoc] at hchain
    have hnodup : (name :: path).reverse.Nodup := List.nodup_reverse.2 htrail.nodup
    rw [hmet] at hnodup
    constructor
    · simp
    · rw [List.getLast?_concat, List.cons_append, List.head?_cons]
    · rw [List.dropLast_concat]
      exact hnodup.of_append_right
    · exact hchain.right_of_append

/-- With more steps than names are left to be met the bound on the steps has no influence: the walk
reports the cycle that it closes with.

**Proof sketch.** Induction on the way in which the walk closes. A trail has no more names than the
graph, so there is a step left, and with this step the walk goes on or meets the name that it closes
with. -/
theorem walk_eq (h : g.Closes path cycle) (htrail : g.Trail path) {steps : Nat}
    (hsteps : g.size < steps + path.length) : g.walk g.stuck steps path = cycle := by
  induction h generalizing steps with
  | @goesOn name next path cycle hreads hnew _ ih =>
    have hlength := htrail.length_le
    obtain ⟨fewer, rfl⟩ : ∃ fewer, steps = fewer + 1 := ⟨steps - 1, by omega⟩
    rw [walk, hreads]
    simp only [if_neg hnew]
    apply ih (htrail.goesOn hreads hnew)
    simp only [List.length_cons] at hsteps ⊢
    omega
  | @closes name next path before after hreads hmet hfirst =>
    have hlength := htrail.length_le
    obtain ⟨fewer, rfl⟩ : ∃ fewer, steps = fewer + 1 := ⟨steps - 1, by omega⟩
    have hmem : next ∈ name :: path := by
      rw [← List.mem_reverse, hmet]
      simp
    have hcut : (before ++ next :: after).dropWhile (· ≠ next) = next :: after := by
      rw [List.dropWhile_append_of_pos]
      · simp
      · intro x hx
        have hne : x ≠ next := fun heq => hfirst (heq ▸ hx)
        simpa using hne
    rw [walk, hreads]
    simp only [if_pos hmem]
    rw [hmet, hcut]

end Closes

/-! ### Cycles in place of orders -/

/-- Whatever a graph is built from, if it has no order, then a cycle is reported.

* Some name cannot be placed, and the walk from the first such name closes with what is reported. So
  it ends by itself, and neither for want of a name to begin with, nor at a name that leads nowhere.
* With any number of steps that is no less than the number of names the walk reports the same.
* What is reported goes round in a circle: it has two entries at least, the last is the first, no
  name comes twice otherwise, and each name reads the next.

**Proof sketch.** A name that cannot be placed reads another one that cannot be placed, so the walk
can always go on; it meets no name twice before it closes, so it closes. -/
theorem order_error_circular (fields : List (String × List String)) (additions : List Addition)
    (cycle : List String) (h : (built fields additions).order = .error cycle) :
    let g := built fields additions
    (∃ start others, g.stuck = start :: others ∧ g.Closes [start] cycle ∧
      ∀ steps, g.size ≤ steps → g.walk g.stuck steps [start] = cycle) ∧
      Circular (Reads fields additions) cycle := by
  intro g
  have hg : g.WellFormed := wellFormed_built fields additions
  have hreads : Reads fields additions = fun reader read => (reader, read) ∈ g.edges := by
    funext reader read
    exact propext mem_edges_built.symm
  obtain ⟨start, others, hstuck⟩ := List.exists_cons_of_ne_nil (stuck_ne_nil hg h)
  have htrail : g.Trail [start] := .start (by rw [hstuck]; exact List.mem_cons_self)
  obtain ⟨closed, hcloses⟩ := htrail.exists_closes hg
  have hwalk : ∀ steps, g.size ≤ steps → g.walk g.stuck steps [start] = closed := by
    intro steps hsteps
    apply hcloses.walk_eq htrail
    rw [List.length_singleton]
    omega
  have hreported : g.cycleAmong g.stuck = g.walk g.stuck g.size [start] := by
    rw [hstuck]
    rfl
  have hcycle : closed = cycle := by
    rw [order_eq_error h, ← hwalk g.size le_rfl]
    exact hreported.symm
  subst hcycle
  rw [hreads]
  exact ⟨⟨start, others, hstuck, hcloses, hwalk⟩, hcloses.circular htrail⟩

/-- A label that leads to a cycle and is not on it: visits read what is counted, and that reads the
visits. -/
theorem visits_circular :
    (built [("label", ["visits"]), ("visits", ["total"]), ("total", ["visits", "visits"])]
        []).order = .error ["visits", "total", "visits"] ∧
      Circular (Reads [("label", ["visits"]), ("visits", ["total"]),
        ("total", ["visits", "visits"])] []) ["visits", "total", "visits"] := by
  have horder : (built [("label", ["visits"]), ("visits", ["total"]),
      ("total", ["visits", "visits"])] []).order = .error ["visits", "total", "visits"] := by
    decide +kernel
  exact ⟨horder, (order_error_circular _ _ _ horder).2⟩

end Graph

end Cohort.Dependency
