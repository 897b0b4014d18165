import Cohort.Proofs.Wire.Record
import Cohort.Wire.Definition
set_option relaxedAutoImplicit false
set_option autoImplicit false

/-!
# Definitions read back

Every definition that can be submitted is read again from what is written of it. Members that were
missing are written with their defaults or as null, a single operand is written as a list, and a
word that was given by its place is written out.

## Main results

* `roundTrips` of every definition that can be submitted.
-/

namespace Cohort

open Json (Document)
open Wire (Lists Record RoundTrips)

/-! ### Constraints -/

namespace Constraint.Spec

/-- Operands are read back; they are written as a list, even where they were one value. -/
lemma roundTrips_operands : RoundTrips operands .array := by
  intro d vs h
  obtain ⟨items, hitems⟩ : ∃ items : List Document, items.mapM Document.value? = some vs := by
    unfold operands at h
    split at h
    case h_1 items => exact ⟨items, h⟩
    case h_2 => exact ⟨[], h⟩
    case h_3 =>
      obtain ⟨v, hv, rfl⟩ := Option.map_eq_some_iff.1 h
      refine ⟨[d], ?_⟩
      rw [List.mapM_cons, hv]
      rfl
  exact RoundTrips.jsonList (.array items) vs hitems

/-- A constraint is read back. -/
lemma roundTrips : RoundTrips ofDocument? toJson := by
  refine RoundTrips.spelledRecord (fun _ => rfl) (by decide) (by decide) fun r r' s h hheld => ?_
  -- what the readers of the members found in `r`
  simp only [Option.bind_eq_bind, Option.bind_eq_some_iff, Option.pure_def, Option.some.injEq] at h
  obtain ⟨field, hfield, dataType, hdataType, operator, hoperator, values, hvalues, rfl⟩ := h
  -- what was written of it and stands in `r'`
  simp only [Record.Holds, List.forall_mem_cons] at hheld
  obtain ⟨hfield', hdataType', hoperator', hvalues', -⟩ := hheld
  rw [RoundTrips.text.orElse rfl hfield hfield', RoundTrips.text.required hdataType hdataType',
    RoundTrips.text.required hoperator hoperator', roundTrips_operands.orElse rfl hvalues hvalues']
  rfl

end Constraint.Spec

/-! ### Timeframes -/

namespace Timeframe.Spec

/-- A timeframe is read back, whether or not its word may be given by its place.

**Proof sketch.** By the word that was read. The members of that form are written with the word
before them, and each of them is read back. -/
lemma roundTrips (numbered : Bool) : RoundTrips (ofDocument? numbered) toJson := by
  intro d s h
  simp only [ofDocument?, Option.bind_eq_bind, Option.bind_eq_some_iff] at h
  obtain ⟨t, -, h⟩ := h
  split at h
  case h_1 =>
    simp only [Option.bind_eq_some_iff, Option.pure_def, Option.some.injEq] at h
    obtain ⟨r, -, value, hvalue, unit, hunit, rfl⟩ := h
    refine (Lists.ofMembers (by simp)).tagged_bind (by decide) fun rest hrest => ?_
    refine hrest.read?_bind (by simp) fun r' hheld => ?_
    simp only [Record.Holds, List.forall_mem_cons] at hheld
    obtain ⟨hvalue', hunit', -⟩ := hheld
    rw [RoundTrips.int64.required hvalue hvalue', RoundTrips.text.required hunit hunit']
    rfl
  case h_2 =>
    simp only [Option.bind_eq_some_iff, Option.pure_def, Option.some.injEq] at h
    obtain ⟨r, -, start, hstart, stop, hstop, rfl⟩ := h
    refine (Lists.ofMembers (by simp)).tagged_bind (by decide) fun rest hrest => ?_
    refine hrest.read?_bind (by simp) fun r' hheld => ?_
    simp only [Record.Holds, List.forall_mem_cons] at hheld
    obtain ⟨hstart', hstop', -⟩ := hheld
    rw [RoundTrips.timestamp.required hstart hstart',
      RoundTrips.timestamp.optional rfl hstop hstop']
    rfl
  case h_3 =>
    obtain ⟨r, -, rfl⟩ := Option.map_eq_some_iff.1 h
    refine (Lists.ofMembers (by simp)).tagged_bind (by decide) fun rest hrest => ?_
    refine Option.map_eq_bind.trans (hrest.read?_bind (by simp) fun r' hheld => rfl)
  case h_4 => cases h

end Timeframe.Spec

/-! ### Aggregates -/

namespace Aggregate.Spec

/-- An aggregate is read back, whether or not the word of its timeframe may be given by its
place.

**Proof sketch.** Every member is read back. -/
lemma roundTrips (numbered : Bool) : RoundTrips (ofDocument? numbered) toJson := by
  refine RoundTrips.record (fun _ => rfl) (by decide) fun r r' s h hheld => ?_
  simp only [Option.bind_eq_bind, Option.bind_eq_some_iff, Option.pure_def, Option.some.injEq] at h
  obtain ⟨operation, hoperation, timeframe, htimeframe, eventName, heventName, eventProperty,
    heventProperty, aggregateBy, haggregateBy, filters, hfilters, rfl⟩ := h
  simp only [Record.Holds, List.forall_mem_cons] at hheld
  obtain ⟨hoperation', htimeframe', heventName', heventProperty', haggregateBy', hfilters', -⟩ :=
    hheld
  rw [RoundTrips.text.required hoperation hoperation',
    (Timeframe.Spec.roundTrips numbered).required htimeframe htimeframe',
    RoundTrips.text.optional rfl heventName heventName',
    RoundTrips.text.optional rfl heventProperty heventProperty',
    RoundTrips.text.optional rfl haggregateBy haggregateBy',
    Constraint.Spec.roundTrips.list.orElse rfl hfilters hfilters']
  rfl

end Aggregate.Spec

/-! ### Declared fields -/

/-- A declared field is read back. -/
lemma Field.Spec.roundTrips : RoundTrips ofDocument? toJson := by
  refine RoundTrips.record (fun _ => rfl) (by decide) fun r r' s h hheld => ?_
  simp only [Option.bind_eq_bind, Option.bind_eq_some_iff, Option.pure_def, Option.some.injEq] at h
  obtain ⟨field, hfield, displayName, hdisplayName, dataType, hdataType, icon, hicon, category,
    hcategory, suggestedValues, hsuggestedValues, rfl⟩ := h
  simp only [Record.Holds, List.forall_mem_cons] at hheld
  obtain ⟨hfield', hdisplayName', hdataType', hicon', hcategory', hsuggestedValues', -⟩ := hheld
  rw [RoundTrips.text.required hfield hfield',
    RoundTrips.text.optional rfl hdisplayName hdisplayName',
    RoundTrips.text.required hdataType hdataType', RoundTrips.text.optional rfl hicon hicon',
    RoundTrips.text.optional rfl hcategory hcategory',
    RoundTrips.jsonList.orElse rfl hsuggestedValues hsuggestedValues']
  rfl

/-- The declaration of an event is read back. -/
lemma EventSchema.Spec.roundTrips : RoundTrips ofDocument? toJson := by
  refine RoundTrips.record (fun _ => rfl) (by decide) fun r r' s h hheld => ?_
  simp only [Option.bind_eq_bind, Option.bind_eq_some_iff, Option.pure_def, Option.some.injEq] at h
  obtain ⟨eventName, heventName, displayName, hdisplayName, properties, hproperties, rfl⟩ := h
  simp only [Record.Holds, List.forall_mem_cons] at hheld
  obtain ⟨heventName', hdisplayName', hproperties', -⟩ := hheld
  rw [RoundTrips.text.required heventName heventName',
    RoundTrips.text.optional rfl hdisplayName hdisplayName',
    Field.Spec.roundTrips.list.orElse rfl hproperties hproperties']
  rfl

/-! ### Computed fields -/

namespace ComputedField.Spec

/-- The record of a formula is read back. -/
lemma roundTrips_formula : RoundTrips formulaText formulaRecord := by
  refine RoundTrips.record (fun _ => rfl) (by decide) fun r r' source h hheld => ?_
  simp only [Record.Holds, List.forall_mem_cons] at hheld
  exact RoundTrips.text.required h hheld.1

/-- A computed field is read back. -/
lemma roundTrips : RoundTrips ofDocument? toJson := by
  refine RoundTrips.record (fun _ => rfl) (by decide) fun r r' s h hheld => ?_
  simp only [Option.bind_eq_bind, Option.bind_eq_some_iff, Option.pure_def, Option.some.injEq] at h
  obtain ⟨field, hfield, displayName, hdisplayName, schemaType, hschemaType, dataType, hdataType,
    aggregate, haggregate, formula, hformula, rfl⟩ := h
  simp only [Record.Holds, List.forall_mem_cons] at hheld
  obtain ⟨hfield', hdisplayName', hschemaType', hdataType', haggregate', hformula', -⟩ := hheld
  rw [RoundTrips.text.required hfield hfield',
    RoundTrips.text.optional rfl hdisplayName hdisplayName',
    RoundTrips.text.required hschemaType hschemaType',
    RoundTrips.text.required hdataType hdataType',
    (Aggregate.Spec.roundTrips false).optional rfl haggregate haggregate',
    roundTrips_formula.optional rfl hformula hformula']
  rfl

end ComputedField.Spec

/-! ### Segments -/

/-- A threshold is read back. -/
lemma Threshold.Spec.roundTrips : RoundTrips ofDocument? toJson := by
  refine RoundTrips.record (fun _ => rfl) (by decide) fun r r' s h hheld => ?_
  simp only [Option.bind_eq_bind, Option.bind_eq_some_iff, Option.pure_def, Option.some.injEq] at h
  obtain ⟨metric, hmetric, property, hproperty, operator, hoperator, value, hvalue, valueTo,
    hvalueTo, rfl⟩ := h
  simp only [Record.Holds, List.forall_mem_cons] at hheld
  obtain ⟨hmetric', hproperty', hoperator', hvalue', hvalueTo', -⟩ := hheld
  rw [RoundTrips.text.required hmetric hmetric', RoundTrips.text.optional rfl hproperty hproperty',
    RoundTrips.text.required hoperator hoperator', RoundTrips.float.required hvalue hvalue',
    RoundTrips.float.optional rfl hvalueTo hvalueTo']
  rfl

/-- A filter is read back. -/
lemma Filter.Spec.roundTrips : RoundTrips ofDocument? toJson := by
  refine RoundTrips.record (fun _ => rfl) (by decide) fun r r' s h hheld => ?_
  simp only [Option.bind_eq_bind, Option.bind_eq_some_iff, Option.pure_def, Option.some.injEq] at h
  obtain ⟨filterType, hfilterType, event, hevent, property, hproperty, constraints, hconstraints,
    threshold, hthreshold, timeframe, htimeframe, rfl⟩ := h
  simp only [Record.Holds, List.forall_mem_cons] at hheld
  obtain ⟨hfilterType', hevent', hproperty', hconstraints', hthreshold', htimeframe', -⟩ := hheld
  rw [RoundTrips.text.required hfilterType hfilterType',
    RoundTrips.text.optional rfl hevent hevent',
    RoundTrips.text.optional rfl hproperty hproperty',
    Constraint.Spec.roundTrips.list.orElse rfl hconstraints hconstraints',
    Threshold.Spec.roundTrips.optional rfl hthreshold hthreshold',
    (Timeframe.Spec.roundTrips false).optional rfl htimeframe htimeframe']
  rfl

/-- A segment is read back. -/
lemma Segment.Spec.roundTrips : RoundTrips ofDocument? toJson := by
  refine RoundTrips.record (fun _ => rfl) (by decide) fun r r' s h hheld => ?_
  simp only [Option.bind_eq_bind, Option.bind_eq_some_iff, Option.pure_def, Option.some.injEq] at h
  obtain ⟨name, hname, description, hdescription, filters, hfilters, rfl⟩ := h
  simp only [Record.Holds, List.forall_mem_cons] at hheld
  obtain ⟨hname', hdescription', hfilters', -⟩ := hheld
  rw [RoundTrips.text.required hname hname',
    RoundTrips.text.optional rfl hdescription hdescription',
    Filter.Spec.roundTrips.list.orElse rfl hfilters hfilters']
  rfl

end Cohort
