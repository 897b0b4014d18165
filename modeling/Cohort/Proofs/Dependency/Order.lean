import Mathlib.Data.List.Perm.Subperm
import Cohort.Proofs.Dependency.Graph
set_option relaxedAutoImplicit false
set_option autoImplicit false

/-!
# The order of evaluation

An order is found by placing names one by one. At every moment the placed names come after all that
they read, and the names of the queue read only placed ones; so each name that is placed next
settles behind what it reads. No name that reads only placed ones is overlooked, so placing ends
early only if each name that is left reads another one that is left.

What tells when a name is free is its count of names to wait for. The counts are integers that are
only ever taken one off; that each of them is the number of names that are really missing, and thus
never falls below zero, rests on no name being placed twice and no edge being recorded twice.

## Main definitions

* `Cohort.Dependency.Graph.Settled` — every placed name comes after the names that it reads.
* `Cohort.Dependency.Graph.Placing` — what holds of the queue and the placed names at every moment.
* `Cohort.Dependency.Graph.Noticed` — no name that reads only placed ones is overlooked.
* `Cohort.Dependency.Graph.Orderly` — both, and that the counts are right.

## Main results

* `Cohort.Dependency.Graph.Placing.next`, `Cohort.Dependency.Graph.Noticed.next` — placing one more
  name keeps that.
* `Cohort.Dependency.Graph.orderly_placement` — every moment is orderly.
* `Cohort.Dependency.Graph.perm_of_order_eq_ok`, `Cohort.Dependency.Graph.idxOf_lt_of_order_eq_ok` —
  an order lists every name once, and each one after the names that it reads.
* `Cohort.Dependency.Graph.exists_order` — names that do not read one another without end have an
  order.
-/

namespace Cohort.Dependency.Graph

/-- Every placed name is placed once and after the names that it reads. The names are listed last
first. -/
def Settled (g : Graph) : List String → Prop
  | [] => True
  | name :: placed =>
    name ∉ placed ∧ (∀ read ∈ g.dependencies name, read ∈ placed) ∧ Settled g placed

/-- What a placed name reads is placed too. -/
lemma Settled.mem_of_mem {g : Graph} {placed : List String} (h : g.Settled placed)
    {name read : String} (hname : name ∈ placed) (hread : read ∈ g.dependencies name) :
    read ∈ placed := by
  induction placed with
  | nil => simp at hname
  | cons x placed ih =>
    obtain ⟨-, hx, hplaced⟩ := h
    rcases List.mem_cons.1 hname with rfl | hname
    · exact List.mem_cons_of_mem _ (hx read hread)
    · exact List.mem_cons_of_mem _ (ih hplaced hname)

/-- No name is placed twice. -/
lemma Settled.nodup {g : Graph} {placed : List String} (h : g.Settled placed) : placed.Nodup := by
  induction placed with
  | nil => exact List.nodup_nil
  | cons x placed ih => exact List.nodup_cons.2 ⟨h.1, ih h.2.2⟩

/-- In the order of placing, a name comes after each name that it reads.

**Proof sketch.** Induction on the placed names. The name placed last stands at the end, behind all
others; what an earlier name reads is placed before it already. -/
lemma Settled.idxOf_reverse_lt {g : Graph} {placed : List String} (h : g.Settled placed)
    {name read : String} (hname : name ∈ placed) (hread : read ∈ g.dependencies name) :
    placed.reverse.idxOf read < placed.reverse.idxOf name := by
  induction placed with
  | nil => simp at hname
  | cons x placed ih =>
    obtain ⟨hx, hreads, hplaced⟩ := h
    rw [List.reverse_cons]
    rcases List.mem_cons.1 hname with rfl | hname
    · have hmem : read ∈ placed.reverse := List.mem_reverse.2 (hreads read hread)
      have hnot : name ∉ placed.reverse := fun hin => hx (List.mem_reverse.1 hin)
      rw [List.idxOf_append_of_mem hmem, List.idxOf_append_of_notMem hnot]
      have := List.idxOf_lt_length_iff.2 hmem
      omega
    · have hmem : read ∈ placed := hplaced.mem_of_mem hname hread
      rw [List.idxOf_append_of_mem (List.mem_reverse.2 hmem),
        List.idxOf_append_of_mem (List.mem_reverse.2 hname)]
      exact ih hplaced hname

/-! ### Names that are free -/

/-- How many of the names that a name reads are not among those placed. -/
def missing (g : Graph) (placed : List String) (name : String) : Nat :=
  (g.dependencies name).countP (· ∉ placed)

/-- A name misses nothing when all that it reads is placed. -/
@[simp] lemma missing_eq_zero {g : Graph} {placed : List String} {name : String} :
    g.missing placed name = 0 ↔ ∀ read ∈ g.dependencies name, read ∈ placed := by
  simp [missing, List.countP_eq_zero]

/-- The names that become free when a name is placed. -/
def freed (g : Graph) (name : String) (placed : List String) : List String :=
  (g.dependents name).filter fun d => g.missing placed d = 0

/-- Placing a name frees those of its readers that read nothing else that is still to be placed. -/
@[simp] lemma mem_freed {g : Graph} {name d : String} {placed : List String} :
    d ∈ g.freed name placed ↔
      (d, name) ∈ g.edges ∧ ∀ read ∈ g.dependencies d, read ∈ placed := by
  simp [freed]

/-- At first a name misses all that it reads. -/
@[simp] lemma missing_nil (g : Graph) (name : String) :
    g.missing [] name = (g.dependencies name).length := by
  simp [missing]

/-- Among names, those that are not placed before another one is placed are those that are not
placed afterwards, and that one.

**Proof sketch.** Induction on the names, each of which is the one that is placed, was placed
before, or is neither. -/
lemma countP_notMem_cons {placed : List String} {name : String} (hname : name ∉ placed)
    (names : List String) :
    names.countP (· ∉ placed) = names.countP (· ∉ name :: placed) + names.count name := by
  induction names with
  | nil => rfl
  | cons x names ih =>
    rw [List.countP_cons, List.countP_cons, List.count_cons, ih]
    by_cases hx : x = name
    · subst hx
      simp [hname]
      omega
    · by_cases hplaced : x ∈ placed
      · simp [hx, hplaced]
      · simp [hx, hplaced]
        omega

/-- When a name is placed, those who read it miss one name less, since it is listed once among what
they read. -/
lemma missing_cons {g : Graph} (hg : g.WellFormed) {placed : List String} {name : String}
    (hname : name ∉ placed) (d : String) :
    g.missing placed d =
      g.missing (name :: placed) d + if name ∈ g.dependencies d then 1 else 0 := by
  unfold missing
  rw [countP_notMem_cons hname]
  split
  case isTrue hmem => rw [List.count_eq_one_of_mem (hg.nodup_dependencies d) hmem]
  case isFalse hmem => rw [List.count_eq_zero_of_not_mem hmem]

/-! ### The queue and the placed names -/

/-- What holds of the names of a queue and those placed, last first. -/
structure Placing (g : Graph) (queue placed : List String) : Prop where
  /-- No name is queued up or placed twice. -/
  nodup : (queue ++ placed).Nodup
  /-- All of them are names of the graph. -/
  mem_nodes : ∀ name ∈ queue ++ placed, name ∈ g.nodes
  /-- A name of the queue reads only placed names. -/
  free : ∀ name ∈ queue, ∀ read ∈ g.dependencies name, read ∈ placed
  /-- The placed names come after those that they read. -/
  settled : g.Settled placed

namespace Placing

variable {g : Graph} {queue placed : List String} {name : String}

/-- In the beginning the names that read nothing are queued up. -/
lemma start (hg : g.WellFormed) : g.Placing (g.nodes.filter fun n => g.missing [] n = 0) [] where
  nodup := by
    rw [List.append_nil]
    exact hg.nodes_nodup.filter _
  mem_nodes := fun name hname => by
    rw [List.append_nil] at hname
    exact List.mem_of_mem_filter hname
  free := fun name hname => by
    have hmissing := (List.mem_filter.1 hname).2
    exact missing_eq_zero.1 (of_decide_eq_true hmissing)
  settled := trivial

/-- The name in front of the queue is not placed yet. -/
lemma notMem_placed (h : g.Placing (name :: queue) placed) : name ∉ placed := fun hin =>
  (List.nodup_cons.1 h.nodup).1 (List.mem_append_right _ hin)

/-- A name that becomes free was neither in the queue nor placed: it reads the name that is placed
just now.

**Proof sketch.** What is in the queue or placed reads only names that are placed. So the name of
the moment would be placed, which it is not. -/
lemma notMem_of_mem_freed (h : g.Placing (name :: queue) placed) {d : String}
    (hd : d ∈ g.freed name (name :: placed)) : d ∉ name :: (queue ++ placed) := by
  have hread : name ∈ g.dependencies d := mem_dependencies.2 (mem_freed.1 hd).1
  intro hin
  have hplaced : name ∈ placed := by
    rw [← List.cons_append] at hin
    rcases List.mem_append.1 hin with hin | hin
    · exact h.free d hin name hread
    · exact h.settled.mem_of_mem hin hread
  exact h.notMem_placed hplaced

/-- Placing the name in front of the queue, and queuing up the names that this frees, keeps the
invariant.

**Proof sketch.** The placed name reads only placed ones because it was queued up. A name that is
freed reads the placed name, so it was not in the queue, whose names read only names that were
placed before, and not placed itself; hence nothing is queued up twice. -/
lemma next (hg : g.WellFormed) (h : g.Placing (name :: queue) placed) :
    g.Placing (queue ++ g.freed name (name :: placed)) (name :: placed) where
  nodup := by
    have hnew : (g.freed name (name :: placed)).Nodup := (hg.nodup_dependents name).filter _
    have hold : (name :: (queue ++ placed)).Nodup := h.nodup
    have hperm : (queue ++ g.freed name (name :: placed) ++ name :: placed).Perm
        (g.freed name (name :: placed) ++ name :: (queue ++ placed)) := by
      rw [List.append_assoc]
      refine List.perm_append_comm.trans ?_
      rw [List.append_assoc]
      refine List.Perm.append_left _ ?_
      rw [List.cons_append]
      exact List.perm_append_comm.cons name
    refine hperm.nodup_iff.2 (List.nodup_append.2 ⟨hnew, hold, fun d hd x hx hdx => ?_⟩)
    exact h.notMem_of_mem_freed hd (hdx ▸ hx)
  mem_nodes := fun x hx => by
    simp only [List.mem_append, List.mem_cons] at hx
    rcases hx with (hx | hx) | hx | hx
    · exact h.mem_nodes x (by simp [hx])
    · exact (hg.mem_nodes _ (mem_freed.1 hx).1).1
    · exact h.mem_nodes x (by simp [hx])
    · exact h.mem_nodes x (by simp [hx])
  free := fun x hx read hread => by
    rcases List.mem_append.1 hx with hx | hx
    · exact List.mem_cons_of_mem _ (h.free x (List.mem_cons_of_mem _ hx) read hread)
    · exact (mem_freed.1 hx).2 read hread
  settled := ⟨h.notMem_placed, h.free name (by simp), h.settled⟩

end Placing

/-- No name that reads only placed names is overlooked: it is queued up or placed. -/
def Noticed (g : Graph) (queue placed : List String) : Prop :=
  ∀ name ∈ g.nodes, (∀ read ∈ g.dependencies name, read ∈ placed) → name ∈ queue ++ placed

namespace Noticed

variable {g : Graph} {queue placed : List String} {name : String}

/-- In the beginning all names that read nothing are queued up. -/
lemma start (g : Graph) : g.Noticed (g.nodes.filter fun n => g.missing [] n = 0) [] := by
  intro name hname hreads
  rw [List.append_nil, List.mem_filter]
  exact ⟨hname, decide_eq_true (missing_eq_zero.2 hreads)⟩

/-- Placing the name in front of the queue, and queuing up the names that this frees, keeps the
invariant: a name that reads only placed names now reads the one that was placed just now, and is
freed, or did read only placed names before.

**Proof sketch.** A name that reads only placed names either reads the one placed just now, and is
freed, or it read only placed names before, and was noticed then. -/
lemma next (h : g.Noticed (name :: queue) placed) :
    g.Noticed (queue ++ g.freed name (name :: placed)) (name :: placed) := by
  intro x hx hreads
  simp only [List.mem_append, List.mem_cons]
  by_cases hname : name ∈ g.dependencies x
  · have hfreed : x ∈ g.freed name (name :: placed) :=
      mem_freed.2 ⟨mem_dependencies.1 hname, hreads⟩
    exact .inl (.inr hfreed)
  · have hbefore : ∀ read ∈ g.dependencies x, read ∈ placed := by
      intro read hread
      rcases List.mem_cons.1 (hreads read hread) with rfl | hplaced
      · exact absurd hread hname
      · exact hplaced
    have hnoticed := h x hx hbefore
    simp only [List.mem_append, List.mem_cons] at hnoticed
    rcases hnoticed with (rfl | hqueue) | hplaced
    · exact .inr (.inl rfl)
    · exact .inl (.inl hqueue)
    · exact .inr (.inr hplaced)

end Noticed

/-! ### Every moment -/

/-- What holds at every moment at which names are placed. -/
structure Orderly (g : Graph) (p : Placement) : Prop where
  /-- The placed names come after those that they read, and the queue may follow. -/
  placing : g.Placing p.queue p.placed
  /-- No name that may be placed is overlooked. -/
  noticed : g.Noticed p.queue p.placed
  /-- The count of a name is the number of names that it misses. -/
  remaining : ∀ name, p.remaining name = g.missing p.placed name

/-- Every reader that has one name less to wait for gets its count taken one off once, and is queued
up if one name was left.

**Proof sketch.** Induction on the readers. The first one gets its count taken off, and the others
are different names, whose counts this does not change. -/
lemma foldl_release {readers : List String} (h : readers.Nodup) (p : Placement) :
    readers.foldl Placement.release p =
      ⟨p.queue ++ readers.filter (p.remaining · = 1), p.placed,
        fun name => if name ∈ readers then p.remaining name - 1 else p.remaining name⟩ := by
  induction readers generalizing p with
  | nil => simp
  | cons reader readers ih =>
    obtain ⟨hreader, hreaders⟩ := List.nodup_cons.1 h
    have hqueue : readers.filter ((p.release reader).remaining · = 1) =
        readers.filter (p.remaining · = 1) := by
      refine List.filter_congr fun x hx => ?_
      have hne : x ≠ reader := fun heq => hreader (heq ▸ hx)
      simp [Placement.release, hne]
    rw [List.foldl_cons, ih hreaders, hqueue]
    simp only [Placement.release, Placement.mk.injEq, true_and]
    constructor
    · by_cases hone : p.remaining reader = 1
      · simp [hone]
      · have hleft : p.remaining reader - 1 ≠ 0 := by omega
        simp [hone, hleft]
    · funext name
      by_cases hname : name = reader
      · subst hname
        simp [hreader]
      · simp [hname]

/-- The first moment is orderly. -/
lemma orderly_start {g : Graph} (hg : g.WellFormed) : g.Orderly g.start := by
  have hqueue : g.start.queue = g.nodes.filter fun n => g.missing [] n = 0 := by
    simp [start]
  constructor
  · rw [hqueue]
    exact Placing.start hg
  · rw [hqueue]
    exact Noticed.start g
  · intro name
    simp [start]

/-- Placing the name in front of the queue frees those who read it and nothing that is not
placed.

**Proof sketch.** The count of a name is the number of names that it misses, and it misses one name
less exactly if it reads the placed one. So the readers whose count was one are those that are
freed. -/
lemma Orderly.place_cons {g : Graph} (hg : g.WellFormed) {name : String}
    {queue placed : List String} {remaining : String → Int}
    (h : g.Orderly ⟨name :: queue, placed, remaining⟩) :
    g.place ⟨name :: queue, placed, remaining⟩ =
      ⟨queue ++ g.freed name (name :: placed), name :: placed,
        fun d => g.missing (name :: placed) d⟩ := by
  have hcount : ∀ d, remaining d =
      g.missing (name :: placed) d + if name ∈ g.dependencies d then 1 else 0 := by
    intro d
    have hmissing : remaining d = g.missing placed d := h.remaining d
    rw [hmissing, missing_cons hg h.placing.notMem_placed d]
    split <;> simp
  have hreader : ∀ d, d ∈ g.dependents name ↔ name ∈ g.dependencies d := by
    intro d
    rw [mem_dependents, mem_dependencies]
  simp only [place, foldl_release (hg.nodup_dependents name), Placement.mk.injEq, true_and]
  constructor
  · refine congrArg (queue ++ ·) (List.filter_congr fun d hd => ?_)
    have hone : remaining d = g.missing (name :: placed) d + 1 := by
      rw [hcount, if_pos ((hreader d).1 hd)]
    refine decide_eq_decide.2 ?_
    show remaining d = 1 ↔ g.missing (name :: placed) d = 0
    omega
  · funext d
    rw [hcount d]
    by_cases hd : name ∈ g.dependencies d
    · simp [hd, (hreader d).2 hd]
    · have hnot : d ∉ g.dependents name := fun hin => hd ((hreader d).1 hin)
      simp [hd, hnot]

/-- The moment after an orderly one is orderly. -/
lemma Orderly.place {g : Graph} (hg : g.WellFormed) {p : Placement} (h : g.Orderly p) :
    g.Orderly (g.place p) := by
  obtain ⟨queue, placed, remaining⟩ := p
  cases queue with
  | nil => exact h
  | cons name queue =>
    rw [h.place_cons hg]
    exact ⟨h.placing.next hg, h.noticed.next, fun _ => rfl⟩

/-- Every moment is orderly. -/
theorem orderly_placement {g : Graph} (hg : g.WellFormed) (steps : Nat) :
    g.Orderly (g.placement steps) := by
  induction steps with
  | zero => exact orderly_start hg
  | succ steps ih => exact ih.place hg

/-- As long as the queue is not empty each step places one name.

**Proof sketch.** Induction on the steps. -/
lemma length_placed_placement {g : Graph} (hg : g.WellFormed) (steps : Nat) :
    (g.placement steps).queue = [] ∨ (g.placement steps).placed.length = steps := by
  induction steps with
  | zero => exact .inr rfl
  | succ steps ih =>
    have horderly := orderly_placement hg steps
    rw [placement]
    generalize g.placement steps = p at ih horderly
    obtain ⟨queue, placed, remaining⟩ := p
    cases queue with
    | nil => exact .inl rfl
    | cons name queue =>
      right
      rw [horderly.place_cons hg]
      simpa using ih

/-- When as many steps were made as there are names, the queue is empty: nothing more can be placed.

**Proof sketch.** Otherwise every step placed one name. Then all names are placed, and none is left
for the queue, since no name is placed and queued up at once. -/
theorem queue_placement_size {g : Graph} (hg : g.WellFormed) :
    (g.placement g.size).queue = [] := by
  rcases length_placed_placement hg g.size with hqueue | hplaced
  · exact hqueue
  · have hplacing := (orderly_placement hg g.size).placing
    have hlength := (List.subperm_of_subset hplacing.nodup hplacing.mem_nodes).length_le
    rw [List.length_append, hplaced] at hlength
    have hsize : g.nodes.length = g.size := rfl
    exact List.length_eq_zero_iff.1 (by omega)

/-! ### Orders -/

/-- A graph has an order only if all its names were placed in the end. -/
lemma order_eq_ok {g : Graph} {names : List String} (h : g.order = .ok names) :
    names = (g.placement g.size).placed.reverse ∧ names.length = g.size := by
  simp only [order] at h
  split at h
  case isTrue hlength =>
    obtain rfl := Except.ok.inj h
    exact ⟨rfl, (List.length_reverse ..).trans hlength⟩
  case isFalse => cases h

/-- An order lists every name of the graph once.

**Proof sketch.** The names are placed one by one and never twice, and there are as many as the
graph has. -/
theorem perm_of_order_eq_ok {g : Graph} (hg : g.WellFormed) {names : List String}
    (h : g.order = .ok names) : names.Perm g.nodes := by
  obtain ⟨hnames, hlength⟩ := order_eq_ok h
  have hplacing := (orderly_placement hg g.size).placing
  have hnodup : names.Nodup := by
    rw [hnames]
    exact List.nodup_reverse.2 hplacing.settled.nodup
  have hmem : names ⊆ g.nodes := by
    rw [hnames]
    exact fun x hx => hplacing.mem_nodes x (List.mem_append_right _ (List.mem_reverse.1 hx))
  exact (List.subperm_of_subset hnodup hmem).perm_of_length_le (Nat.le_of_eq hlength.symm)

/-- In an order each name comes after the names that it reads. -/
theorem idxOf_lt_of_order_eq_ok {g : Graph} (hg : g.WellFormed) {names : List String}
    (h : g.order = .ok names) {reader read : String} (hedge : (reader, read) ∈ g.edges) :
    names.idxOf read < names.idxOf reader := by
  have hreader : reader ∈ names :=
    (perm_of_order_eq_ok hg h).mem_iff.2 (hg.mem_nodes _ hedge).1
  have hsettled := (orderly_placement hg g.size).placing.settled
  rw [(order_eq_ok h).1] at hreader ⊢
  exact hsettled.idxOf_reverse_lt (List.mem_reverse.1 hreader) (mem_dependencies.2 hedge)

/-- If every name is placed in the end then there is an order: each of them is placed once. -/
lemma exists_order_of_subset {g : Graph} (hg : g.WellFormed)
    (h : g.nodes ⊆ (g.placement g.size).placed) : ∃ names, g.order = .ok names := by
  have hplacing := (orderly_placement hg g.size).placing
  have hsubset : (g.placement g.size).placed ⊆ g.nodes := fun x hx =>
    hplacing.mem_nodes x (List.mem_append_right _ hx)
  have hlength : (g.placement g.size).placed.length = g.size :=
    Nat.le_antisymm (List.subperm_of_subset hplacing.settled.nodup hsubset).length_le
      (List.subperm_of_subset hg.nodes_nodup h).length_le
  exact ⟨_, if_pos hlength⟩

/-- A name that reads only names which are placed in the end is placed in the end too. -/
lemma mem_placed_of_reads {g : Graph} (hg : g.WellFormed) {name : String} (hname : name ∈ g.nodes)
    (h : ∀ read ∈ g.dependencies name, read ∈ (g.placement g.size).placed) :
    name ∈ (g.placement g.size).placed := by
  have hnoticed := (orderly_placement hg g.size).noticed name hname h
  rw [queue_placement_size hg] at hnoticed
  exact hnoticed

/-- Names that do not read one another without end have an order.

**Proof sketch.** Induction along what a name reads: all that it reads is placed in the end, so it
is placed too. -/
theorem exists_order {g : Graph} (hg : g.WellFormed)
    (h : WellFounded fun read reader => (reader, read) ∈ g.edges) :
    ∃ names, g.order = .ok names := by
  apply exists_order_of_subset hg
  intro name
  induction name using h.induction with
  | _ name ih =>
    intro hname
    apply mem_placed_of_reads hg hname
    intro read hread
    have hedge : (name, read) ∈ g.edges := mem_dependencies.1 hread
    exact ih read hedge (hg.mem_nodes _ hedge).2

end Cohort.Dependency.Graph
