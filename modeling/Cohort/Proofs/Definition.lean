import Mathlib.Data.List.DropRight
import Cohort.ComputedField
import Cohort.Proofs.Result
import Cohort.Segment.Basic
set_option relaxedAutoImplicit false
set_option autoImplicit false

/-!
# Accepted definitions

A definition that is accepted has a proper name: the submitted one without the blanks around it,
and not empty. The properties of an event have proper names that are all different, and a formula
does not mention its own field. Nothing but the identifier and the time of a segment depends on when
it is submitted.

## Main definitions

* `Cohort.IsName` — names without blanks around them that are not empty.

## Main results

* `Cohort.Text.trim_trim` — trimming is done after one time.
* `Cohort.EventSchema.compile_eq_ok`, `Cohort.Field.compile_eq_ok`,
  `Cohort.ComputedField.compile_eq_ok`, `Cohort.Segment.compile_eq_ok` — what is accepted.
-/

namespace Cohort

open Result

/-! ### Names -/

namespace Text

/-- The characters between the blanks at both ends, as what is left when the blanks in front are
dropped and then those behind. -/
lemma trimBoth_eq (cs : List Char) : trimBoth cs = (cs.dropWhile isBlank).rdropWhile isBlank := rfl

/-- Characters between which there are no blanks at the ends stay as they are.

**Proof sketch.** What is left of a trimmed front starts like the front, if it is not empty: no
blank comes first. So dropping blanks in front changes nothing, and dropping them behind was done
before. -/
lemma trimBoth_trimBoth (cs : List Char) : trimBoth (trimBoth cs) = trimBoth cs := by
  have hfront : (trimBoth cs).dropWhile isBlank = trimBoth cs := by
    rw [List.dropWhile_eq_self_iff]
    intro hlength
    have hprefix : trimBoth cs <+: cs.dropWhile isBlank := List.rdropWhile_prefix _ _
    have hpos : 0 < (cs.dropWhile isBlank).length := hlength.trans_le hprefix.length_le
    have hhead : (trimBoth cs)[0] = (cs.dropWhile isBlank)[0] := hprefix.getElem hlength
    rw [hhead]
    exact List.dropWhile_eq_self_iff.1 (List.dropWhile_idempotent isBlank cs) hpos
  rw [trimBoth_eq (trimBoth cs), hfront, trimBoth_eq, List.rdropWhile_idempotent]

/-- A trimmed text stays as it is when it is trimmed again. -/
theorem trim_trim (s : String) : trim (trim s) = trim s := by
  unfold trim
  rw [String.toList_ofList, trimBoth_trimBoth]

end Text

/-- A text that can be the name of a definition: without blanks around it, and not empty. -/
structure IsName (name : String) : Prop where
  /-- There are no blanks around it. -/
  trimmed : Text.trim name = name
  /-- It is not empty. -/
  ne_empty : name ≠ ""

/-- A name is read as the text without the blanks around it. -/
lemma readName_eq_ok {what text name : String} :
    readName what text = .ok name ↔ name = Text.trim text ∧ IsName name := by
  simp only [readName, guard_eq_ok, String.isEmpty_iff, Except.ok.injEq]
  constructor
  · rintro ⟨hne, rfl⟩
    exact ⟨rfl, Text.trim_trim text, hne⟩
  · rintro ⟨rfl, hname⟩
    exact ⟨hname.ne_empty, rfl⟩

/-! ### Declarations -/

/-- A declared field keeps its name, trimmed. -/
lemma Field.compile_eq_ok {spec : Field.Spec} {field : Field} (h : Field.compile spec = .ok field) :
    field.field = Text.trim spec.field ∧ IsName field.field := by
  simp only [Field.compile, bind_eq_ok, pure_eq_ok] at h
  obtain ⟨name, hname, dataType, -, rfl⟩ := h
  exact readName_eq_ok.1 hname

/-- The properties of an event have names, each of which is new.

**Proof sketch.** Induction on the properties. Each name is compared with all names before it, so
the names of the rest are new as well. -/
lemma EventSchema.compileProperties_eq_ok {event : String} {seen : List String}
    {specs : List Field.Spec} {fields : List Field}
    (h : compileProperties event seen specs = .ok fields) :
    (∀ field ∈ fields, IsName field.field ∧ field.field ∉ seen) ∧
      (fields.map Field.field).Nodup := by
  induction specs generalizing seen fields with
  | nil =>
    obtain rfl := Except.ok.inj h
    exact ⟨by simp, List.nodup_nil⟩
  | cons spec specs ih =>
    simp only [compileProperties, bind_eq_ok, throw_bind, guard_eq_ok, pure_eq_ok] at h
    obtain ⟨field, hfield, hnew, rest, hrest, rfl⟩ := h
    obtain ⟨hnames, hnodup⟩ := ih hrest
    constructor
    · intro f hf
      rcases List.mem_cons.1 hf with rfl | hf
      · exact ⟨(Field.compile_eq_ok hfield).2, hnew⟩
      · exact ⟨(hnames f hf).1, fun hin => (hnames f hf).2 (List.mem_cons_of_mem _ hin)⟩
    · rw [List.map_cons, List.nodup_cons]
      refine ⟨fun hin => ?_, hnodup⟩
      obtain ⟨f, hf, hname⟩ := List.mem_map.1 hin
      exact (hnames f hf).2 (hname ▸ List.mem_cons_self)

/-- An event schema keeps its name, trimmed, and declares no property twice. -/
lemma EventSchema.compile_eq_ok {spec : Spec} {schema : EventSchema}
    (h : compile spec = .ok schema) :
    schema.eventName = Text.trim spec.eventName ∧ IsName schema.eventName ∧
      (∀ field ∈ schema.properties, IsName field.field) ∧
      (schema.properties.map Field.field).Nodup := by
  simp only [compile, bind_eq_ok, pure_eq_ok] at h
  obtain ⟨name, hname, fields, hfields, rfl⟩ := h
  obtain ⟨htrim, hisName⟩ := readName_eq_ok.1 hname
  obtain ⟨hnames, hnodup⟩ := compileProperties_eq_ok hfields
  exact ⟨htrim, hisName, fun field hfield => (hnames field hfield).1, hnodup⟩

/-! ### Computed fields -/

/-- A formula does not mention its own field. -/
lemma ComputedField.compileFormula_eq_ok {field : String} {spec : Spec} {c : Computation}
    (h : compileFormula field spec = .ok c) :
    ∃ source e, c = .formula source e ∧ field ∉ e.identifiers := by
  simp only [compileFormula, guard_eq_ok] at h
  obtain ⟨-, h⟩ := h
  cases hformula : spec.formula with
  | none =>
    rw [hformula] at h
    cases h
  | some source =>
    rw [hformula] at h
    simp only [bind_eq_ok, throw_bind, guard_eq_ok, pure_eq_ok] at h
    obtain ⟨e, -, hself, rfl⟩ := h
    exact ⟨source, e, rfl, hself⟩

/-- An aggregate is no formula. -/
lemma ComputedField.compileAggregate_eq_ok {field : String} {spec : Spec} {c : Computation}
    (h : compileAggregate field spec = .ok c) : ∃ a, c = .aggregate a := by
  simp only [compileAggregate, guard_eq_ok] at h
  obtain ⟨-, h⟩ := h
  cases haggregate : spec.aggregate with
  | none =>
    rw [haggregate] at h
    cases h
  | some a =>
    rw [haggregate] at h
    simp only [bind_eq_ok, pure_eq_ok] at h
    obtain ⟨a, -, rfl⟩ := h
    exact ⟨a, rfl⟩

/-- A computed field keeps its name, trimmed, and does not read itself. -/
lemma ComputedField.compile_eq_ok {spec : Spec} {f : ComputedField} (h : compile spec = .ok f) :
    f.field = Text.trim spec.field ∧ IsName f.field ∧ f.field ∉ f.references := by
  simp only [compile, bind_eq_ok] at h
  obtain ⟨name, hname, dataType, -, h⟩ := h
  obtain ⟨htrim, hisName⟩ := readName_eq_ok.1 hname
  split at h
  · simp only [bind_eq_ok, pure_eq_ok] at h
    obtain ⟨computation, hcomputation, rfl⟩ := h
    obtain ⟨a, rfl⟩ := compileAggregate_eq_ok hcomputation
    exact ⟨htrim, hisName, List.not_mem_nil⟩
  · simp only [bind_eq_ok, pure_eq_ok] at h
    obtain ⟨computation, hcomputation, rfl⟩ := h
    obtain ⟨source, e, rfl, hself⟩ := compileFormula_eq_ok hcomputation
    exact ⟨htrim, hisName, hself⟩
  · cases h

/-! ### Segments -/

/-- A segment keeps its name, trimmed, and its description, and gets the identifier and the time at
which it is submitted. -/
lemma Segment.compile_eq_ok {id : Uuid} {now : Instant} {spec : Spec} {segment : Segment} :
    compile id now spec = .ok segment ↔
      ∃ filters, spec.filters.mapM Filter.compile = .ok filters ∧ IsName (Text.trim spec.name) ∧
        segment = ⟨id, Text.trim spec.name, spec.description, filters, now, now⟩ := by
  simp only [compile, bind_eq_ok, pure_eq_ok, readName_eq_ok]
  constructor
  · rintro ⟨name, ⟨rfl, hname⟩, filters, hfilters, rfl⟩
    exact ⟨filters, hfilters, hname, rfl⟩
  · rintro ⟨filters, hfilters, hname, rfl⟩
    exact ⟨_, ⟨rfl, hname⟩, filters, hfilters, rfl⟩

end Cohort
