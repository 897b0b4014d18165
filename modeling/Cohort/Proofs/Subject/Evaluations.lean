import Mathlib.Data.Finset.Card
import Mathlib.Logic.Relation
import Cohort.Proofs.Formula.Transcript
import Cohort.Proofs.Subject.Conjunction
import Cohort.Proofs.Subject.Resolver
set_option relaxedAutoImplicit false
set_option autoImplicit false

/-!
# How often computed fields are worked out

Which computed fields a call needs has a meaning that knows neither records nor marks: a field that
is asked for is needed, and so is what the formula of a needed field asks for when all attributes
have their meanings. The branch of a choice that is not chosen needs nothing, and neither do the
filters of a segment behind the first that is not passed. During a request each needed field is
worked out once, whatever the calls are and however their needs overlap.

## Main definitions

* `Cohort.Subject.Reads` — what the formula of a computed field asks for.
* `Cohort.Subject.Needs`, `Cohort.Subject.Call.Needs` — the computed fields that the value of an
  attribute, or the reply to a call, needs.
* `Cohort.Subject.Tallied` — findings that record whatever the recorded fields need, and count each
  recorded field once.
* `Cohort.Subject.Adds` — computations that record what they need, and nothing else.

## Main results

* `Cohort.Subject.valueOf_adds` — a look-up records what it needs.
* `Cohort.Subject.call_adds` — so does a call.
* `Cohort.Subject.evaluations_after` — the evaluations of a request, after any operations on a
  registry.
-/

namespace Cohort

/-- The computed fields whose values are recorded. -/
def Findings.recorded (found : Findings) : Finset String := found.values.keys.toFinset

namespace Findings

variable {found : Findings} {name other : String} {v : Json}

/-- A field is recorded if it has a value among the findings. -/
lemma mem_recorded : name ∈ found.recorded ↔ ∃ v, found.values.get? name = some v := by
  rw [recorded, List.mem_toFinset, Index.mem_keys]

/-- A field without a value among the findings is not recorded. -/
lemma notMem_recorded (h : found.values.get? name = Option.none) : name ∉ found.recorded := by
  simp [mem_recorded, h]

/-- At first nothing is recorded. -/
@[simp] lemma recorded_none : none.recorded = ∅ := rfl

/-- A note about a scan records no field. -/
@[simp] lemma recorded_note (degraded : Bool) : (found.note degraded).recorded = found.recorded :=
  rfl

/-- A value that is recorded is recorded for its field. -/
@[simp] lemma recorded_record : (found.record name v).recorded = insert name found.recorded := by
  ext other
  rw [Finset.mem_insert, mem_recorded, mem_recorded, ← Index.contains_iff, ← Index.contains_iff,
    record, Index.contains_insert, eq_comm]

end Findings

namespace Subject

variable {s : Subject} {name other read : String} {f : ComputedField}

/-! ### Needs -/

/-- The formula of a computed field asks for an attribute if all answers that it gets are
meanings. -/
inductive Reads (s : Subject) (name read : String) : Prop
  | formula {f : ComputedField} {source : String} {e : Formula.Expr} {t : Formula.Transcript}
      {v : Formula.Value} (present : s.snapshot.computed.get? name = some f)
      (computed : f.computation = .formula source e) (asks : Formula.Asks .plain e t v)
      (meanings : ∀ entry ∈ t, s.Denotes entry.1 entry.2) (asked : read ∈ t.names) :
      Reads s name read

/-- The value of an attribute needs a computed field: that is the attribute, or something that a
needed field reads. -/
def Needs (s : Subject) (name other : String) : Prop :=
  Relation.ReflTransGen s.Reads name other ∧ s.snapshot.computed.contains other

/-- A computed field needs itself. -/
lemma Needs.refl (h : s.snapshot.computed.contains name) : s.Needs name name := ⟨.refl, h⟩

/-- An attribute needs itself if it is a computed field, and what it reads needs. -/
lemma needs_iff (h : s.snapshot.computed.contains name) :
    s.Needs name other ↔ other = name ∨ ∃ read, s.Reads name read ∧ s.Needs read other := by
  constructor
  · rintro ⟨hpath, hother⟩
    rcases Relation.ReflTransGen.cases_head hpath with rfl | ⟨read, hread, hrest⟩
    · exact .inl rfl
    · exact .inr ⟨read, hread, hrest, hother⟩
  · rintro (rfl | ⟨read, hread, hrest, hother⟩)
    · exact .refl h
    · exact ⟨.head hread hrest, hother⟩

/-- Only computed fields read anything, and what they read is mentioned by their formulas. -/
lemma Reads.exists_mem_references (h : s.Reads name read) :
    ∃ f, s.snapshot.computed.get? name = some f ∧ read ∈ f.references := by
  obtain @⟨f, source, e, t, v, present, computed, asks, -, asked⟩ := h
  refine ⟨f, present, ?_⟩
  rw [ComputedField.references_of_formula computed]
  exact Formula.Expr.mem_identifiers.2 (asks.names_sublist.subset asked)

/-- Only computed fields need anything. -/
lemma Needs.contains (h : s.Needs name other) : s.snapshot.computed.contains name := by
  rcases Relation.ReflTransGen.cases_head h.1 with rfl | ⟨read, hread, -⟩
  · exact h.2
  · obtain ⟨f, hf, -⟩ := hread.exists_mem_references
    exact Index.contains_iff.2 ⟨f, hf⟩

/-- An attribute that is no computed field needs nothing. -/
lemma not_needs_of_eq_none (h : s.snapshot.computed.get? name = none) : ¬ s.Needs name other :=
  fun hneeds => by simpa [Index.contains, h] using hneeds.contains

/-- What a field reads comes before it. -/
lemma Reads.rank_lt (hs : s.snapshot.Ordered) (h : s.Reads name read)
    (hfield : s.snapshot.computed.contains read) : s.snapshot.rank read < s.snapshot.rank name := by
  obtain ⟨f, hf, hmem⟩ := h.exists_mem_references
  exact hs.rank_lt hf read hmem hfield

/-- What a field needs does not come after it. -/
lemma Needs.rank_le (hs : s.snapshot.Ordered) (h : s.Needs name other) :
    s.snapshot.rank other ≤ s.snapshot.rank name := by
  obtain ⟨hpath, hother⟩ := h
  induction hpath using Relation.ReflTransGen.head_induction_on with
  | refl => exact Nat.le_refl _
  | head hread hrest ih =>
    have hfield : s.snapshot.computed.contains _ := Needs.contains ⟨hrest, hother⟩
    exact Nat.le_trans ih (Nat.le_of_lt (hread.rank_lt hs hfield))

/-- What a field reads does not need the field. -/
lemma Reads.not_needs (hs : s.snapshot.Ordered) (h : s.Reads name read) : ¬ s.Needs read name :=
  fun hneeds => Nat.lt_irrefl _
    (Nat.lt_of_le_of_lt (hneeds.rank_le hs) (h.rank_lt hs hneeds.contains))

/-- All transcripts of a formula whose answers are meanings are the same.

**Proof sketch.** The meanings are one scope, and in one scope a formula has one transcript. -/
lemma transcript_unique (hs : s.snapshot.Ordered) {e : Formula.Expr} {t t' : Formula.Transcript}
    {v v' : Formula.Value} (h : Formula.Asks .plain e t v) (h' : Formula.Asks .plain e t' v')
    (ht : ∀ entry ∈ t, s.Denotes entry.1 entry.2) (ht' : ∀ entry ∈ t', s.Denotes entry.1 entry.2) :
    t = t' := by
  let scope (read : String) : StateM Unit Json := pure (s.valueOf read .none).1
  have hanswers (t : Formula.Transcript) (ht : ∀ entry ∈ t, s.Denotes entry.1 entry.2) :
      Formula.Answers scope () t () := by
    induction t with
    | nil => exact Formula.answers_nil_iff.2 rfl
    | cons entry t ih =>
      rw [List.forall_mem_cons] at ht
      have hvalue : (s.valueOf entry.1 .none).1 = entry.2 :=
        (valueOf_finds hs entry.1 .none sound_none).1.unique ht.1
      exact Formula.answers_cons_iff.2 ⟨(), Prod.ext hvalue rfl, ih ht.2⟩
  have hrun := h.transcribe_eq (hanswers t ht)
  rw [h'.transcribe_eq (hanswers t' ht')] at hrun
  exact (congrArg Formula.Run.transcript hrun).symm

/-! ### Tallies -/

/-- Findings that record meanings only, that record whatever the recorded fields need, and that
count each recorded field once. -/
structure Tallied (s : Subject) (found : Findings) : Prop where
  /-- All recorded values are meanings. -/
  sound : s.Sound found
  /-- What a recorded field needs is recorded. -/
  closed : ∀ name ∈ found.recorded, ∀ other, s.Needs name other → other ∈ found.recorded
  /-- As many fields were worked out as are recorded. -/
  count : found.evaluations = found.recorded.card

/-- At first the findings are tallied. -/
lemma tallied_none : s.Tallied .none := ⟨sound_none, by simp, rfl⟩

/-- A scan leaves its note only, which is no part of the tally. -/
lemma Tallied.note {found : Findings} (h : s.Tallied found) (degraded : Bool) :
    s.Tallied (found.note degraded) := ⟨h.sound, h.closed, h.count⟩

/-- One more field may be recorded once all that it reads needs is. -/
lemma Tallied.record {found : Findings} (h : s.Tallied found) {v : Json} (hv : s.Denotes name v)
    (hnew : name ∉ found.recorded)
    (hneeds : ∀ other, s.Needs name other → other = name ∨ other ∈ found.recorded) :
    s.Tallied (found.record name v) where
  sound := h.sound.record hv
  closed := by
    simp only [Findings.recorded_record, Finset.mem_insert]
    rintro name' (rfl | hname') other hother
    · exact hneeds other hother
    · exact .inr (h.closed name' hname' other hother)
  count := by
    rw [Findings.recorded_record, Finset.card_insert_of_notMem hnew, ← h.count]
    rfl

/-- From tallied findings the computation leads to tallied findings that record what it needs
besides what they recorded before. -/
def Adds {α : Type} (s : Subject) (x : Lookup α) (needs : String → Prop) : Prop :=
  ∀ found, s.Tallied found → s.Tallied (x found).2 ∧
    ∀ other, other ∈ (x found).2.recorded ↔ other ∈ found.recorded ∨ needs other

section Adds

variable {α β : Type} {x : Lookup α} {needs needs' : String → Prop}

/-- Needs that are the same may stand for each other. -/
lemma Adds.congr (h : s.Adds x needs) (hneeds : ∀ other, needs' other ↔ needs other) :
    s.Adds x needs' := fun found hfound => by
  simpa only [hneeds] using h found hfound

/-- A computation that looks nothing up adds nothing. -/
lemma adds_pure {a : α} (h : ∀ other, ¬ needs other) : s.Adds (pure a) needs :=
  fun _ hfound => ⟨hfound, fun other => (or_iff_left (h other)).symm⟩

/-- What a computation in two steps needs is what each step needs. What the second step needs must
not depend on what was recorded before the first. -/
lemma Adds.bind {g : α → Lookup β} (hx : s.Adds x needs)
    (hg : ∀ found, s.Tallied found → s.Adds (g (x found).1) needs') :
    s.Adds (x >>= g) (fun other => needs other ∨ needs' other) := by
  intro found hfound
  obtain ⟨hfound', hrecorded⟩ := hx found hfound
  obtain ⟨hfound'', hrecorded'⟩ := hg found hfound _ hfound'
  refine ⟨hfound'', fun other => ?_⟩
  rw [← or_assoc, ← hrecorded]
  exact hrecorded' other

/-- A step that looks nothing up needs nothing. -/
lemma Adds.map (hx : s.Adds x needs) (g : α → β) : s.Adds (x >>= fun a => pure (g a)) needs :=
  fun found hfound => hx found hfound

/-- A step for every element of a list adds what each step adds.

**Proof sketch.** Induction on the list. -/
lemma Adds.mapM {g : α → Lookup β} {needs : α → String → Prop} {as : List α}
    (h : ∀ a ∈ as, s.Adds (g a) (needs a)) :
    s.Adds (as.mapM g) (fun other => ∃ a ∈ as, needs a other) := by
  induction as with
  | nil =>
    rw [List.mapM_nil]
    exact adds_pure (by simp)
  | cons a as ih =>
    rw [List.mapM_cons]
    have hrest := ih fun a' ha' => h a' (List.mem_cons_of_mem _ ha')
    refine ((h a List.mem_cons_self).bind fun _ _ => hrest.map _).congr fun other => ?_
    simp

end Adds

/-! ### Look-ups -/

/-- A formula reads the names of any transcript whose answers are meanings. -/
lemma reads_iff (hs : s.snapshot.Ordered) (hf : s.snapshot.computed.get? name = some f)
    {source : String} {e : Formula.Expr} (hcomputed : f.computation = .formula source e)
    {t : Formula.Transcript} {v : Formula.Value} (hasks : Formula.Asks .plain e t v)
    (hmeanings : ∀ entry ∈ t, s.Denotes entry.1 entry.2) :
    s.Reads name read ↔ read ∈ t.names := by
  constructor
  · rintro @⟨f', source', e', t', v', present, computed, asks, meanings, asked⟩
    obtain rfl := Option.some.inj (hf.symm.trans present)
    obtain ⟨rfl, rfl⟩ := Computation.formula.inj (hcomputed.symm.trans computed)
    rwa [transcript_unique hs hasks asks hmeanings meanings]
  · exact .formula hf hcomputed hasks hmeanings

/-- An aggregate reads no attributes. -/
lemma not_reads_of_aggregate (hf : s.snapshot.computed.get? name = some f) {a : Aggregate}
    (hcomputed : f.computation = .aggregate a) : ¬ s.Reads name read := by
  rintro @⟨f', source', e', t', v', present, computed, asks, meanings, asked⟩
  obtain rfl := Option.some.inj (hf.symm.trans present)
  rw [hcomputed] at computed
  cases computed

/-- The answers that look-ups give to the names of a transcript are meanings. -/
lemma denotes_of_answers (hs : s.snapshot.Ordered) {t : Formula.Transcript}
    {found found' : Findings} (hfound : s.Sound found)
    (hanswers : Formula.Answers s.valueOf found t found') :
    ∀ entry ∈ t, s.Denotes entry.1 entry.2 := by
  have hmade : List.Forall₂ s.Denotes t.names (t.names.mapM s.valueOf found).1 :=
    (Returns.mapM (fun name _ => valueOf_finds hs name) found hfound).1
  rw [hanswers] at hmade
  rwa [Formula.Transcript.names, Formula.Transcript.answers, List.forall₂_map_left_iff,
    List.forall₂_map_right_iff, List.forall₂_same] at hmade

/-- Working a field out records what is needed by what it reads, if look-ups of that do.

**Proof sketch.** By the computation. An aggregate reads no attributes. The evaluation of a formula
is a row of look-ups, its transcript, and what it reads is what the transcript names
(`reads_iff`). -/
lemma workOut_adds (hs : s.snapshot.Ordered) (hf : s.snapshot.computed.get? name = some f)
    (h : ∀ read ∈ f.references, s.Adds (s.valueOf read) (s.Needs read)) :
    s.Adds (s.workOut f s.valueOf) fun other =>
      ∃ read, s.Reads name read ∧ s.Needs read other := by
  intro found hfound
  cases hcomputed : f.computation with
  | aggregate a =>
    rw [workOut_of_aggregate hcomputed]
    refine ⟨hfound.note _, fun other => ?_⟩
    simp [not_reads_of_aggregate hf hcomputed]
  | formula source e =>
    obtain ⟨t, v, found', hasks, hanswers⟩ := e.exists_asks s.valueOf .plain found
    have hreads (read : String) : s.Reads name read ↔ read ∈ t.names :=
      reads_iff hs hf hcomputed hasks (denotes_of_answers hs hfound.sound hanswers)
    have hwork : s.workOut f s.valueOf found = (v.toJson, found') := by
      have hevaluate : e.evaluate s.valueOf found = (v, found') := hasks.evaluateIn_eq hanswers
      unfold workOut
      rw [hcomputed]
      change ((e.evaluate s.valueOf found).1.toJson, (e.evaluate s.valueOf found).2) = _
      rw [hevaluate]
    have hnames : s.Adds (t.names.mapM s.valueOf) fun other =>
        ∃ read ∈ t.names, s.Needs read other := by
      refine Adds.mapM fun read hread => h read ?_
      rw [ComputedField.references_of_formula hcomputed]
      exact Formula.Expr.mem_identifiers.2 (hasks.names_sublist.subset hread)
    have hfound' := hnames found hfound
    rw [hanswers] at hfound'
    rw [hwork]
    simpa only [hreads] using hfound'

/-- A look-up records the computed fields that the value of the attribute needs.

**Proof sketch.** Induction along what computed fields read. If the value of a field is recorded, so
is all that it needs. Otherwise the field is worked out, which records what is needed by what it
reads. The field itself is not among that, since it comes after all of it, so that it is still not
recorded when it is counted. -/
theorem valueOf_adds (hs : s.snapshot.Ordered) (name : String) :
    s.Adds (s.valueOf name) (s.Needs name) := by
  induction name using hs.induction with
  | raw name hf =>
    rw [valueOf_raw hf]
    exact adds_pure fun other => not_needs_of_eq_none hf
  | field name f hf ih =>
    intro found hfound
    have hfield : s.snapshot.computed.contains name := Index.contains_iff.2 ⟨f, hf⟩
    rw [valueOf_field hs hf]
    cases hrecorded : found.values.get? name with
    | some v =>
      rw [fieldValue_of_eq_some hrecorded]
      have hmem : name ∈ found.recorded := Findings.mem_recorded.2 ⟨v, hrecorded⟩
      exact ⟨hfound, fun other => (or_iff_left_of_imp (hfound.closed name hmem other)).symm⟩
    | none =>
      rw [fieldValue_of_eq_none hrecorded]
      have hvalue : s.Denotes name (s.workOut f s.valueOf found).1 :=
        (workOut_finds hf (fun read _ => valueOf_finds hs read) found hfound.sound).1
      obtain ⟨hfound', hadded⟩ := workOut_adds hs hf ih found hfound
      have hnew : name ∉ (s.workOut f s.valueOf found).2.recorded := by
        rw [hadded]
        rintro (hmem | ⟨read, hread, hneeds⟩)
        · exact Findings.notMem_recorded hrecorded hmem
        · exact hread.not_needs hs hneeds
      refine ⟨hfound'.record hvalue hnew fun other => ?_, fun other => ?_⟩
      · rw [needs_iff hfield, hadded]
        exact Or.imp_right .inr
      · rw [Findings.recorded_record, Finset.mem_insert, hadded, needs_iff hfield]
        tauto

/-! ### Calls -/

/-- Only a computed field on request needs anything, and then what its value needs. -/
lemma computedValue_adds (hs : s.snapshot.Ordered) (name : String) :
    s.Adds (s.computedValue name) (s.Needs name) := by
  intro found hfound
  cases hf : s.snapshot.computed.get? name with
  | none =>
    rw [computedValue_of_eq_none hf]
    exact ⟨hfound, fun other => (or_iff_left (not_needs_of_eq_none hf)).symm⟩
  | some f =>
    rw [computedValue_of_eq_some hf]
    exact valueOf_adds hs name found hfound

/-- All computed fields together need all computed fields.

**Proof sketch.** All fields are in the order of evaluation, and each needs itself. What any of them
needs is a computed field. -/
lemma computedValues_adds (hs : s.snapshot.Ordered) :
    s.Adds s.computedValues fun other => s.snapshot.computed.contains other := by
  have hvalues : s.Adds (s.valuesOf s.snapshot.evaluationOrder) fun other =>
      ∃ name ∈ s.snapshot.evaluationOrder, s.Needs name other :=
    Adds.mapM fun name _ => (valueOf_adds hs name).map (Prod.mk name)
  refine (hvalues.map Index.ofList).congr fun other => ?_
  constructor
  · intro hother
    have hmem : other ∈ s.snapshot.evaluationOrder :=
      hs.perm.mem_iff.2 (Index.mem_keys.2 (Index.contains_iff.1 hother))
    exact ⟨other, hmem, .refl hother⟩
  · rintro ⟨name, -, hneeds⟩
    exact hneeds.2

end Subject

/-- A filter on an attribute needs what the value of the attribute needs; one on events needs
nothing. -/
def Filter.Needs (s : Subject) : Filter → String → Prop
  | .event .., _ => False
  | .property name _, other => s.Needs name other

/-- Filters need what each of them needs up to the first that is not passed. -/
inductive Segment.FiltersNeed (s : Subject) (other : String) : List Filter → Prop
  | here {filter : Filter} {filters : List Filter} (h : filter.Needs s other) :
      FiltersNeed s other (filter :: filters)
  | later {filter : Filter} {filters : List Filter} (passed : filter.Passes s)
      (h : FiltersNeed s other filters) : FiltersNeed s other (filter :: filters)

namespace Subject

variable {s : Subject}

/-- The reply to a call needs what the value of an attribute needs, all computed fields, or what the
filters of a segment need. -/
def Call.Needs (s : Subject) : Call → String → Prop
  | .ask (.value name), other | .ask (.field name), other => s.Needs name other
  | .ask .allFields, other => s.snapshot.computed.contains other
  | .membership g, other => Segment.FiltersNeed s other g.filters

/-- Filters need computed fields only. -/
lemma filtersNeed_contains {filters : List Filter} {other : String}
    (h : Segment.FiltersNeed s other filters) : s.snapshot.computed.contains other := by
  induction h with
  | @here filter filters h =>
    cases filter with
    | event => exact h.elim
    | property name constraints => exact h.2
  | later _ _ ih => exact ih

/-- Only computed fields are needed. -/
lemma Call.Needs.contains {call : Call} {other : String} (h : call.Needs s other) :
    s.snapshot.computed.contains other := by
  cases call with
  | ask request =>
    cases request with
    | value name | field name => exact And.right h
    | allFields => exact h
  | membership g => exact filtersNeed_contains h

/-- Whether a filter is passed adds what the filter needs. -/
lemma accepts_adds (hs : s.snapshot.Ordered) (filter : Filter) :
    s.Adds (filter.accepts s) (filter.Needs s) := by
  cases filter with
  | event name constraints threshold timeframe =>
    exact fun found hfound => ⟨hfound.note _, fun other => (or_iff_left id).symm⟩
  | property name constraints => exact (valueOf_adds hs name).map _

/-- Going through filters up to the first that is not passed records what they need up to it.

**Proof sketch.** Induction on the filters. Whether the first is passed has a meaning, so whether
the others are gone through does not depend on what was recorded before. -/
lemma acceptsAll_adds (hs : s.snapshot.Ordered) (filters : List Filter) :
    s.Adds (Segment.acceptsAll s filters) fun other => Segment.FiltersNeed s other filters := by
  unfold Segment.acceptsAll
  induction filters with
  | nil => exact adds_pure fun other => by rintro ⟨⟩
  | cons filter filters ih =>
    have hmade (found : Findings) (hfound : s.Tallied found) :
        (filter.accepts s found).1 = true ↔ filter.Passes s :=
      (filter.accepts_returns hs found hfound.sound).1
    have hrest (accepted : Bool) (haccepted : accepted = true ↔ filter.Passes s) :
        s.Adds (match accepted with
          | true => filters.allM (Filter.accepts s)
          | false => pure false)
          fun other => filter.Passes s ∧ Segment.FiltersNeed s other filters := by
      cases accepted with
      | true => exact ih.congr fun other => and_iff_right (haccepted.1 rfl)
      | false => exact adds_pure fun other h => Bool.false_ne_true (haccepted.2 h.1)
    refine ((accepts_adds hs filter).bind fun found hfound =>
      hrest _ (hmade found hfound)).congr fun other => ?_
    constructor
    · rintro (h | ⟨passed, h⟩)
      · exact .inl h
      · exact .inr ⟨passed, h⟩
    · rintro (h | ⟨passed, h⟩)
      · exact .here h
      · exact .later passed h

/-- The reply to a call records the computed fields that it needs. -/
theorem call_adds (hs : s.snapshot.Ordered) (call : Call) :
    s.Adds (s.call call) (call.Needs s) := by
  cases call with
  | ask request =>
    cases request with
    | value name => exact valueOf_adds hs name
    | field name => exact computedValue_adds hs name
    | allFields => exact computedValues_adds hs
  | membership g => exact acceptsAll_adds hs g.filters

/-! ### Requests -/

/-- Findings with the same records have as many evaluations. -/
lemma Tallied.evaluations_eq {found found' : Findings} (h : s.Tallied found)
    (h' : s.Tallied found') (hsame : ∀ other, other ∈ found'.recorded ↔ other ∈ found.recorded) :
    found'.evaluations = found.evaluations := by
  rw [h.count, h'.count, Finset.ext hsame]

/-- A look-up of a recorded field changes nothing. -/
lemma valueOf_recorded {name : String} (hs : s.snapshot.Ordered) {found : Findings}
    (hfield : s.snapshot.computed.contains name) (h : name ∈ found.recorded) :
    (s.valueOf name found).2 = found := by
  obtain ⟨f, hf⟩ := Index.contains_iff.1 hfield
  obtain ⟨v, hv⟩ := Findings.mem_recorded.1 h
  rw [valueOf_field hs hf, fieldValue_of_eq_some hv]

/-- There are as many computed fields as keys. -/
lemma card_computed : s.snapshot.computed.keys.toFinset.card = s.snapshot.computed.keys.length :=
  List.toFinset_card_of_nodup s.snapshot.computed.nodup_keys

/-- The keys are the computed fields. -/
lemma mem_computed {name : String} :
    name ∈ s.snapshot.computed.keys.toFinset ↔ s.snapshot.computed.contains name := by
  rw [List.mem_toFinset, Index.mem_keys, Index.contains_iff]

/-- After any operations on a registry and for any calls of a request, as many computed fields were
worked out as are needed by the calls. So there were never more evaluations than there are computed
fields; looking up a field that was needed changes nothing, and making a call again works nothing
out; and once all fields were asked for, each was worked out. All calls have a reply, with as much
depth as computed fields need, and after them no field is marked any more.

**Proof sketch.** Each call records what it needs besides what was recorded before, by `call_adds`,
and the evaluations count what is recorded. The marks are those of `mapM_callWithin`. -/
theorem evaluations_after (steps : List (String × Registry.Operation)) (project : String)
    (profile : Profile) (events : List Event) (limits : ScanLimits) (now : Instant)
    (calls : List Call) :
    let s : Subject := ⟨(Registry.after steps).snapshot project, profile, events, limits, now⟩
    let replies := (calls.mapM s.call .none).1
    let found := (calls.mapM s.call .none).2
    ∃ needed : Finset String, (∀ name, name ∈ needed ↔ ∃ call ∈ calls, call.Needs s name) ∧
      found.evaluations = needed.card ∧
      found.evaluations ≤ s.snapshot.computed.keys.length ∧
      (∀ name ∈ needed, (s.valueOf name found).2 = found) ∧
      (∀ call ∈ calls, (s.call call found).2.evaluations = found.evaluations) ∧
      (.ask .allFields ∈ calls → found.evaluations = s.snapshot.computed.keys.length) ∧
      ∀ depth, s.snapshot.computed.keys.length < depth →
        calls.mapM (s.callWithin depth) .new = (some replies, ⟨found, ∅⟩) := by
  intro s replies found
  have hs : s.snapshot.Ordered := Registry.ordered_after steps project
  have hadds : s.Adds (calls.mapM s.call) fun other => ∃ call ∈ calls, call.Needs s other :=
    Adds.mapM fun call _ => call_adds hs call
  obtain ⟨hfound, hrecorded⟩ := hadds .none tallied_none
  have hneeded (name : String) :
      name ∈ found.recorded ↔ ∃ call ∈ calls, call.Needs s name := by
    simpa using hrecorded name
  have hfields (name : String) (h : name ∈ found.recorded) : s.snapshot.computed.contains name := by
    obtain ⟨call, -, hneeds⟩ := (hneeded name).1 h
    exact hneeds.contains
  refine ⟨found.recorded, hneeded, hfound.count, ?_, ?_, ?_, ?_, ?_⟩
  · rw [hfound.count, ← card_computed]
    exact Finset.card_le_card fun name h => mem_computed.2 (hfields name h)
  · exact fun name h => valueOf_recorded hs (hfields name h) h
  · intro call hcall
    -- what the call needs was recorded when it was made before
    obtain ⟨hfound', hrecorded'⟩ := call_adds hs call found hfound
    refine hfound.evaluations_eq hfound' fun other => ?_
    rw [hrecorded']
    exact or_iff_left_of_imp fun hneeds => (hneeded other).2 ⟨call, hcall, hneeds⟩
  · intro hall
    have hrecorded' : found.recorded = s.snapshot.computed.keys.toFinset := by
      ext name
      rw [mem_computed]
      exact ⟨hfields name, fun h => (hneeded name).2 ⟨_, hall, h⟩⟩
    rw [hfound.count, hrecorded', card_computed]
  · exact fun depth hdepth => mapM_callWithin hs hdepth calls

/-- Of the two computed fields of the shop each is worked out once, and neither is left marked,
although the label and the visits that it reads are asked for in three ways. -/
theorem customer_evaluations :
    let calls : List Call := [.membership (Registry.visitorsSegment.withFilters [Segment.labelled]),
      .ask .allFields, .ask (.value "visits")]
    (calls.mapM Segment.customer.call .none).2.evaluations = 2 ∧
      (calls.mapM (Segment.customer.callWithin 3) .new).2.marked = ∅ := by
  intro calls
  have hfields : Segment.customer.snapshot.computed.keys.length = 2 := by
    change ((Registry.after Registry.shopSteps).snapshot "shop").computed.keys.length = 2
    rw [Registry.shop_eq]
    rfl
  obtain ⟨_, -, -, -, -, -, hall, hmarked⟩ := evaluations_after Registry.shopSteps "shop"
    Segment.customer.profile Segment.customer.events Segment.customer.limits Segment.customer.now
    calls
  refine ⟨(hall (by simp [calls])).trans hfields, ?_⟩
  have hrun := hmarked 3 (hfields.trans_lt (by decide))
  exact congrArg (fun r => r.2.marked) hrun

end Subject

end Cohort
