import Cohort.Proofs.Formula.Evaluation
import Cohort.Proofs.Registry.Identity
set_option relaxedAutoImplicit false
set_option autoImplicit false

/-!
# Who reads a computed field

A computed field cannot be deleted while something reads it: a formula that mentions it anywhere, or
a segment with a filter on it. What a refused deletion lists is found by going through formulas and
segments, and it is the same that the dependency graph records as edges to the field: no reader is
left out, and none is listed twice however often it mentions the field.

## Main definitions

* `Cohort.Formula.Expr.Mentions` — a formula mentions an attribute in one of its parts.
* `Cohort.Snapshot.Reads`, `Cohort.Snapshot.Filters` — the computed fields and the segments that
  read an attribute.
* `Cohort.Segment.label` — how a segment is listed among those who read a field.

## Main results

* `Cohort.Snapshot.Named.mem_dependents` — the edges of the dependency graph to a field come from
  the computed fields that read it.
* `Cohort.Registry.deletion_refused` — after any operations, when a deletion is refused and what it
  lists.
-/

namespace Cohort

/-! ### Mentions -/

namespace Formula.Expr

/-- A formula mentions an attribute in one of its parts, at any depth. -/
inductive Mentions (name : String) : Expr → Prop
  | ident : Mentions name (.ident name)
  | argument {first e : Expr} {rest : List Expr} (among : e ∈ first :: rest)
      (part : Mentions name e) : Mentions name (.cat first rest)
  | condition {condition accepted rejected : Expr} (part : Mentions name condition) :
      Mentions name (.choose condition accepted rejected)
  | accepted {condition accepted rejected : Expr} (part : Mentions name accepted) :
      Mentions name (.choose condition accepted rejected)
  | rejected {condition accepted rejected : Expr} (part : Mentions name rejected) :
      Mentions name (.choose condition accepted rejected)
  | math {body : Expr} (part : Mentions name body) : Mentions name (.math body)
  | date {body : Expr} (part : Mentions name body) : Mentions name (.date body)
  | leftOperand {op : ArithmeticOp} {left right : Expr} (part : Mentions name left) :
      Mentions name (.arithmetic op left right)
  | rightOperand {op : ArithmeticOp} {left right : Expr} (part : Mentions name right) :
      Mentions name (.arithmetic op left right)
  | leftSide {op : ComparisonOp} {left right : Expr} (part : Mentions name left) :
      Mentions name (.comparison op left right)
  | rightSide {op : ComparisonOp} {left right : Expr} (part : Mentions name right) :
      Mentions name (.comparison op left right)
  | negate {body : Expr} (part : Mentions name body) : Mentions name (.negate body)

variable {name : String}

/-- A list of formulas mentions what one of them does. -/
lemma mem_mentionsAll {es : List Expr} : name ∈ mentionsAll es ↔ ∃ e ∈ es, name ∈ e.mentions := by
  induction es with
  | nil => simp [mentionsAll]
  | cons e es ih => simp [mentionsAll, ih]

/-- A formula that mentions an attribute lists it. -/
lemma Mentions.mem {e : Expr} (h : e.Mentions name) : name ∈ e.mentions := by
  induction h with
  | ident => simp [mentions]
  | argument among part ih =>
    rw [mentions, ← mentionsAll, mem_mentionsAll]
    exact ⟨_, among, ih⟩
  | _ => simp_all [mentions]

mutual

/-- What a formula lists it mentions.

**Proof sketch.** By recursion on the formula, part by part. -/
lemma mentions_of_mem : (e : Expr) → name ∈ e.mentions → e.Mentions name
  | .ident other, h => by
    obtain rfl : name = other := by simpa [mentions] using h
    exact .ident
  | .cat first rest, h => by
    rw [mentions, List.mem_append] at h
    rcases h with h | h
    · exact .argument List.mem_cons_self (mentions_of_mem first h)
    · obtain ⟨e, he, hmentions⟩ := mentionsAll_of_mem rest h
      exact .argument (List.mem_cons_of_mem _ he) hmentions
  | .choose condition accepted rejected, h => by
    rw [mentions, List.mem_append, List.mem_append] at h
    rcases h with (h | h) | h
    · exact .condition (mentions_of_mem condition h)
    · exact .accepted (mentions_of_mem accepted h)
    · exact .rejected (mentions_of_mem rejected h)
  | .math body, h => .math (mentions_of_mem body (by rwa [mentions] at h))
  | .date body, h => .date (mentions_of_mem body (by rwa [mentions] at h))
  | .negate body, h => .negate (mentions_of_mem body (by rwa [mentions] at h))
  | .arithmetic op left right, h => by
    rw [mentions, List.mem_append] at h
    rcases h with h | h
    · exact .leftOperand (mentions_of_mem left h)
    · exact .rightOperand (mentions_of_mem right h)
  | .comparison op left right, h => by
    rw [mentions, List.mem_append] at h
    rcases h with h | h
    · exact .leftSide (mentions_of_mem left h)
    · exact .rightSide (mentions_of_mem right h)
  | .text _, h | .number _, h | .duration _, h | .bool _, h | .null, h => by simp [mentions] at h

/-- What several formulas list one of them mentions. -/
lemma mentionsAll_of_mem : (es : List Expr) → name ∈ mentionsAll es →
    ∃ e ∈ es, e.Mentions name
  | [], h => by simp [mentionsAll] at h
  | e :: es, h => by
    rw [mentionsAll, List.mem_append] at h
    rcases h with h | h
    · exact ⟨e, List.mem_cons_self, mentions_of_mem e h⟩
    · obtain ⟨other, hother, hmentions⟩ := mentionsAll_of_mem es h
      exact ⟨other, List.mem_cons_of_mem _ hother, hmentions⟩

end

/-- The identifiers of a formula are the attributes that it mentions. -/
lemma mem_identifiers_iff {e : Expr} : name ∈ e.identifiers ↔ e.Mentions name :=
  mem_identifiers.trans ⟨mentions_of_mem e, Mentions.mem⟩

end Formula.Expr

/-- A computed field reads what its formula mentions, and an aggregate reads nothing. -/
lemma ComputedField.mem_references {f : ComputedField} {name : String} :
    name ∈ f.references ↔ ∃ source e, f.computation = .formula source e ∧ e.Mentions name := by
  unfold references
  cases f.computation with
  | aggregate => simp
  | formula source e =>
    simp only [Formula.Expr.mem_identifiers_iff, Computation.formula.injEq]
    constructor
    · intro h
      exact ⟨source, e, ⟨rfl, rfl⟩, h⟩
    · rintro ⟨_, _, ⟨rfl, rfl⟩, h⟩
      exact h

/-- A segment reads the attributes on which it has filters. -/
lemma Segment.mem_referencedProperties {g : Segment} {name : String} :
    name ∈ g.referencedProperties ↔ ∃ constraints, .property name constraints ∈ g.filters := by
  unfold referencedProperties
  rw [List.mem_filterMap]
  constructor
  · rintro ⟨filter, hfilter, hname⟩
    cases filter with
    | event => cases hname
    | property other constraints =>
      cases hname
      exact ⟨constraints, hfilter⟩
  · rintro ⟨constraints, hfilter⟩
    exact ⟨_, hfilter, rfl⟩

/-- How a segment is listed among those who read a field. -/
def Segment.label (g : Segment) : String := "segment " ++ quoted g.name

/-- Segments with different names are listed differently. -/
lemma Segment.label_inj {g held : Segment} (h : g.label = held.label) : g.name = held.name := by
  simpa [label, quoted, String.append_assoc] using h

namespace Snapshot

/-- A computed field of a snapshot whose formula mentions an attribute. -/
def Reads (s : Snapshot) (reader name : String) : Prop :=
  ∃ f source e, s.computed.get? reader = some f ∧ f.computation = .formula source e ∧
    e.Mentions name

/-- A segment of a snapshot with a filter on an attribute. -/
def Filters (s : Snapshot) (g : Segment) (name : String) : Prop :=
  (∃ id, s.segments.get? id = some g) ∧ ∃ constraints, .property name constraints ∈ g.filters

variable {s : Snapshot} {name : String}

/-! ### Computed fields -/

namespace Named

variable (h : s.Named)

include h

/-- The fields that read a name are those with a formula that refers to it. -/
lemma reads_iff {reader : String} :
    s.Reads reader name ↔ ∃ f ∈ s.computed.values, name ∈ f.references ∧ f.field = reader := by
  constructor
  · rintro ⟨f, source, e, hf, hformula, hmentions⟩
    refine ⟨f, Index.mem_values.2 ⟨reader, hf⟩, ?_, h reader f hf⟩
    exact ComputedField.mem_references.2 ⟨source, e, hformula, hmentions⟩
  · rintro ⟨f, hf, hread, rfl⟩
    obtain ⟨k, hk⟩ := Index.mem_values.1 hf
    obtain ⟨source, e, hformula, hmentions⟩ := ComputedField.mem_references.1 hread
    obtain rfl : f.field = k := h k f hk
    exact ⟨f, source, e, hk, hformula, hmentions⟩

/-- The fields that are found to read an attribute are those that do. -/
lemma mem_readersOf {reader : String} : reader ∈ s.readersOf name ↔ s.Reads reader name := by
  rw [h.reads_iff, readersOf, List.mem_map]
  simp only [List.mem_filter, decide_eq_true_eq, and_assoc]

/-- Those that read an attribute are found in the order of their names, each once. -/
lemma pairwise_readersOf (name : String) : (s.readersOf name).Pairwise (· < ·) := by
  have hkeys : s.computed.keys.Pairwise (· < ·) := List.pairwise_map.2 s.computed.sorted
  have hsublist : List.Sublist (s.readersOf name) s.computed.keys := by
    rw [← Index.map_values h]
    exact List.filter_sublist.map ComputedField.field
  exact hkeys.sublist hsublist

/-- The edges of the dependency graph to a computed field come from those that read it. -/
theorem mem_dependents (hfield : s.computed.contains name) {reader : String} :
    reader ∈ s.dependencyGraph.dependents name ↔ s.Reads reader name := by
  rw [Dependency.Graph.mem_dependents]
  constructor
  · intro hedge
    obtain ⟨f, hf, hread, -⟩ := h.of_mem_edges hedge
    obtain ⟨source, e, hformula, hmentions⟩ := ComputedField.mem_references.1 hread
    exact ⟨f, source, e, hf, hformula, hmentions⟩
  · rintro ⟨f, source, e, hf, hformula, hmentions⟩
    exact h.mem_edges hf (ComputedField.mem_references.2 ⟨source, e, hformula, hmentions⟩) hfield

end Named

/-! ### Segments -/

/-- The segments that are found to read an attribute are those with a filter on it. -/
lemma mem_segmentsReading {g : Segment} : g ∈ s.segmentsReading name ↔ s.Filters g name := by
  unfold segmentsReading Filters
  rw [List.mem_filter, Index.mem_values, decide_eq_true_eq, Segment.mem_referencedProperties]

/-- They are listed under different names.

**Proof sketch.** No identifier is listed twice, so neither is a segment; and two segments with one
name would have one identifier. -/
lemma Identified.nodup_labels (h : s.Identified) (name : String) :
    ((s.segmentsReading name).map Segment.label).Nodup := by
  have hids : s.segments.values.map Segment.id = s.segments.keys :=
    Index.map_values fun id g hg => (h.segments id g hg).1
  have hvalues : s.segments.values.Nodup := by
    refine List.Nodup.of_map Segment.id ?_
    rw [hids]
    exact s.segments.nodup_keys
  refine (hvalues.filter _).map_on fun g hg held hheld hlabel => ?_
  obtain ⟨id, hid⟩ := Index.mem_values.1 (List.mem_filter.1 hg).1
  obtain ⟨other, hother⟩ := Index.mem_values.1 (List.mem_filter.1 hheld).1
  obtain rfl := h.segment_unique hid hother (Segment.label_inj hlabel)
  exact Option.some.inj (hid.symm.trans hother)

end Snapshot

namespace Registry

/-- After any operations on any projects the deletion of a computed field is refused because of
readers if and only if there are any: formulas that mention the field anywhere, or segments with
filters on it. The refusal lists just those, first the fields in the order of their names, which are
the direct dependents of the field in the dependency graph, and then the segments; nobody is listed
twice. Otherwise the field is deleted.

**Proof sketch.** The snapshot is ordered and identified. So a deletion has no other reason to be
refused, both notions of a reader come down to the references of formulas stored under their own
names, and the keys of an index order what is found under them. -/
theorem deletion_refused (steps : List (String × Operation)) (project name : String)
    (h : ((after steps).snapshot project).computed.contains name) :
    let s := (after steps).snapshot project
    let answer := ((after steps).deleteComputedField project name).1
    ((∃ field dependents, answer = .error (.inUse field dependents)) ↔
        (∃ reader, s.Reads reader name) ∨ ∃ g, s.Filters g name) ∧
      ∃ (readers : List String) (segments : List Segment),
        readers.Pairwise (· < ·) ∧ (∀ reader, reader ∈ readers ↔ s.Reads reader name) ∧
          readers.Perm (s.dependencyGraph.dependents name) ∧
          (∀ g, g ∈ segments ↔ s.Filters g name) ∧ (segments.map Segment.label).Nodup ∧
          answer = if readers = [] ∧ segments = [] then .ok ()
            else .error (.inUse name (readers ++ segments.map Segment.label)) := by
  intro s answer
  have hnamed : s.Named := (ordered_after steps project).named
  have hsorted := hnamed.pairwise_readersOf name
  have hreaders : ∀ reader, reader ∈ s.readersOf name ↔ s.Reads reader name :=
    fun reader => hnamed.mem_readersOf
  have hsegments : ∀ g, g ∈ s.segmentsReading name ↔ s.Filters g name :=
    fun g => Snapshot.mem_segmentsReading
  have hperm : (s.readersOf name).Perm (s.dependencyGraph.dependents name) := by
    have hwf : s.dependencyGraph.WellFormed := Dependency.Graph.wellFormed_ofReferences _
    refine (List.perm_ext_iff_of_nodup (hsorted.imp String.ne_of_lt)
      (hwf.nodup_dependents name)).2 fun reader => ?_
    rw [hreaders, hnamed.mem_dependents h]
  have hnone : s.dependentsOf name = [] ↔ s.readersOf name = [] ∧ s.segmentsReading name = [] := by
    rw [Snapshot.dependentsOf, List.append_eq_nil_iff, List.map_eq_nil_iff]
  have hanswer : answer = if s.readersOf name = [] ∧ s.segmentsReading name = [] then .ok ()
      else .error (.inUse name (s.readersOf name ++
        (s.segmentsReading name).map Segment.label)) := by
    refine (deleteComputedField_eq (ordered_after steps project) name).trans ?_
    rw [if_pos h]
    simp only [← hnone]
    rfl
  refine ⟨?_, s.readersOf name, s.segmentsReading name, hsorted, hreaders, hperm, hsegments,
    (identified_after steps project).nodup_labels name, hanswer⟩
  have hused : ((∃ reader, s.Reads reader name) ∨ ∃ g, s.Filters g name) ↔
      ¬ (s.readersOf name = [] ∧ s.segmentsReading name = []) := by
    simp only [← hreaders, ← hsegments, List.eq_nil_iff_forall_not_mem, not_and_or, not_forall_not]
  rw [hused, hanswer]
  split
  case isTrue hunread => simp [hunread]
  case isFalse hread => exact iff_of_true ⟨name, _, rfl⟩ hread

/-! ### A shop with a greeting -/

/-- A greeting that mentions the visits of a customer twice, and only where no plan is known. -/
def greeting : ComputedField.Spec :=
  ⟨"greeting", none, "formula", "string", none, some "IF(plan, plan, CAT(visits, visits))"⟩

/-- The formula of the greeting. -/
def greetingFormula : Formula.Expr :=
  .choose (.ident "plan") (.ident "plan") (.cat (.ident "visits") [.ident "visits"])

/-- The greeting as a computed field. -/
def greetingField : ComputedField :=
  ⟨"greeting", "greeting", .string,
    .formula "IF(plan, plan, CAT(visits, visits))" greetingFormula⟩

open Formula in
/-- The grammar derives its formula.

**Proof sketch.** By the rules of the grammar: a call is derived with its name, the parentheses and
the formulas between them. -/
lemma derives_greeting : Derives false .formula [.ident "IF", .openParen, .ident "plan", .comma,
    .ident "plan", .comma, .ident "CAT", .openParen, .ident "visits", .comma, .ident "visits",
    .closeParen, .closeParen] greetingFormula := by
  have hvisits : ∀ a ∈ [([.ident "visits"], .ident "visits"), ([.ident "visits"], .ident "visits")],
      Derives (false || Function.cat.allowsArithmetic) .formula a.1 a.2 := by
    intro a ha
    simp only [List.mem_cons, List.not_mem_nil, or_false, or_self] at ha
    rw [ha]
    exact derives_name "visits"
  have hjoined : Derives false .formula [.ident "CAT", .openParen, .ident "visits", .comma,
      .ident "visits", .closeParen] (.cat (.ident "visits") [.ident "visits"]) :=
    .additive (.term (.unary (.primary (.call (by decide +kernel) hvisits .cat))))
  have harguments : ∀ a ∈ [([.ident "plan"], .ident "plan"), ([.ident "plan"], .ident "plan"),
      ([.ident "CAT", .openParen, .ident "visits", .comma, .ident "visits", .closeParen],
        .cat (.ident "visits") [.ident "visits"])],
      Derives (false || Function.choose.allowsArithmetic) .formula a.1 a.2 := by
    intro a ha
    simp only [List.mem_cons, List.not_mem_nil, or_false] at ha
    rcases ha with rfl | rfl | rfl
    · exact derives_name "plan"
    · exact derives_name "plan"
    · exact hjoined
  exact .additive (.term (.unary (.primary (.call (by decide +kernel) harguments .choose))))

/-- The greeting compiles to its field. -/
lemma compile_greeting : ComputedField.compile greeting = .ok greetingField := by
  have hname : readName "field" greeting.field = .ok "greeting" := by decide +kernel
  have htype : Constraint.readDataType greeting.dataType = .ok .string := by decide +kernel
  have hkind : Text.trim greeting.schemaType = "formula" := by decide +kernel
  have hparse : Formula.parse "IF(plan, plan, CAT(visits, visits))" = .ok greetingFormula :=
    Formula.parse_eq_ok.mpr ⟨_, by decide +kernel, derives_greeting⟩
  unfold ComputedField.compile
  rw [hname, htype, hkind]
  simp only [ComputedField.compileFormula, Formula.compile, greeting, hparse]
  rfl

/-- The number two has few enough bits. -/
lemma second_lt : 2 < 0x100000000000000000000000000000000 := by decide

/-- When the regulars are told from the other customers. -/
def evening : Stamp := ⟨⟨2, second_lt⟩, closing.time⟩

/-- Customers whose visits are asked for twice. -/
def regulars : Segment.Spec :=
  ⟨"regulars", none, [⟨"property", none, some "visits", [], none, none⟩,
    ⟨"event", some "visit", none, [], none, none⟩,
    ⟨"property", none, some " visits ", [], none, none⟩]⟩

/-- The regulars as a segment. -/
def regularsSegment : Segment :=
  ⟨evening.id, "regulars", none, [.property "visits" [], .event "visit" [] none .allTime,
    .property "visits" []], evening.time, evening.time⟩

/-- The regulars compile to their segment. -/
lemma compile_regulars :
    Segment.compile evening.id evening.time regulars = .ok regularsSegment := by
  decide +kernel

/-- The definitions of the shop with the greeting and the regulars. -/
def shopWithGreeting : List (String × Operation) :=
  shopSteps ++ [("shop", .createComputedField greeting), ("shop", .createSegment evening regulars)]

/-- What these operations lead to. -/
lemma shopWithGreeting_eq : (after shopWithGreeting).snapshot "shop" =
    { shop with
      version := 5
      computed := shop.computed.insert "greeting" greetingField
      segments := shop.segments.insert evening.id regularsSegment
      evaluationOrder := ["visits", "greeting", "label"] } := by
  simp only [after, shopWithGreeting, shopSteps, List.cons_append, List.nil_append, List.foldl,
    perform, createComputedField, createSegment, submit, compile_label, compile_visits,
    compile_visitors, compile_greeting, compile_regulars]
  rfl

/-- The visits of the customers cannot be deleted: the greeting and the label mention them, and the
visitors and the regulars are filtered by them. Each is listed once. -/
theorem visits_read :
    ((after shopWithGreeting).snapshot "shop").computed.contains "visits" = true ∧
      ∃ (readers : List String) (segments : List Segment),
        readers.Perm
          (((after shopWithGreeting).snapshot "shop").dependencyGraph.dependents "visits") ∧
          ((after shopWithGreeting).deleteComputedField "shop" "visits").1 =
            .error (.inUse "visits" (readers ++ segments.map Segment.label)) ∧
          readers ++ segments.map Segment.label =
            ["greeting", "label", "segment 'visitors'", "segment 'regulars'"] := by
  have hvisits : ((after shopWithGreeting).snapshot "shop").computed.contains "visits" = true := by
    rw [shopWithGreeting_eq]
    rfl
  have hanswer : ((after shopWithGreeting).deleteComputedField "shop" "visits").1 =
      .error (.inUse "visits"
        ["greeting", "label", "segment 'visitors'", "segment 'regulars'"]) := by
    rw [deleteComputedField, change_fst, shopWithGreeting_eq]
    rfl
  obtain ⟨-, readers, segments, -, -, hperm, -, -, hrefused⟩ :=
    deletion_refused shopWithGreeting "shop" "visits" hvisits
  have hlisted := hanswer.symm.trans hrefused
  split at hlisted
  case isTrue => cases hlisted
  case isFalse =>
    obtain ⟨-, hlist⟩ := Error.inUse.inj (Except.error.inj hlisted)
    exact ⟨hvisits, readers, segments, hperm, hlist ▸ hanswer, hlist.symm⟩

end Registry

end Cohort
