import Cohort.Proofs.Constraint.Legality
set_option relaxedAutoImplicit false
set_option autoImplicit false

/-!
# Sets of values

An operator that looks for values takes several of them. A value of the field passes if one of them
is found, or, if the operator is negated, if none is. For texts and for numbers this is done in
different ways, and what is not there or cannot be read is not compared with the values at all.
Still each constraint of this kind says of each of its values whether it is found, and nothing else
about them matters. So the values of a constraint are a set, and a union of sets is a disjunction of
constraints, or a conjunction of negated ones.

## Main definitions

* `Cohort.Constraint.Spec.withValues` — a submitted constraint with other values.
* `Cohort.Constraint.found` — whether a value that is looked for is found.

## Main results

* `Cohort.Constraint.Makes.accepts_eq` — what passes a constraint that looks for values.
* `Cohort.Constraint.compile_append` — values are combined as a set.
-/

namespace Cohort.Constraint

variable {spec : Spec} {c : Constraint} {o : Operator} {t : DataType} {relation : TextRelation}
  {negated : Bool} {vs ws : List Json}

/-! ### Values that are found -/

/-- Whether a value that is looked for is found in what the field holds. Nothing is found where
there is no value. Texts are compared in lower case; a number is found if the value is the same
number. -/
def found (t : DataType) (relation : TextRelation) (candidate : Option Json) (v : Json) : Bool :=
  match candidate with
  | none => false
  | some held =>
    !Json.isAbsent (some held) &&
      match t with
      | .string => relation.holds (Text.lowercase v.toText) (Text.lowercase held.toText)
      | _ =>
        match v.toNumber?, held.toNumber? with
        | some x, some y => Decimal.same x y
        | _, _ => false

/-- Nothing is found where there is no value. -/
lemma any_found_absent {candidate : Option Json} (habsent : Json.isAbsent candidate = true) :
    vs.any (found t relation candidate) = false := by
  rw [List.any_eq_false]
  intro v _
  cases candidate with
  | none => simp [found]
  | some held => simp [found, habsent]

/-- Numbers that are the same as one number are found in a value that is read as it. -/
lemma any_found_numeric {xs : List Float} {held : Json} {y : Float} (ht : t.isNumeric = true)
    (hread : List.Forall₂ (fun v x => v.toNumber? = some x) vs xs)
    (hpresent : Json.isAbsent (some held) = false) (hheld : held.toNumber? = some y) :
    vs.any (found t relation (some held)) = xs.any (Decimal.same · y) := by
  induction hread with
  | nil => rfl
  | @cons v x _ _ hx _ ih =>
    have hfound : found t relation (some held) v = Decimal.same x y := by
      cases t <;> cases ht <;> simp [found, hpresent, hheld, hx]
    rw [List.any_cons, List.any_cons, hfound, ih]

/-- Nothing is found in what cannot be read as a number. -/
lemma any_found_unread {held : Json} (ht : t.isNumeric = true) (hheld : held.toNumber? = none) :
    vs.any (found t relation (some held)) = false := by
  rw [List.any_eq_false]
  intro v _
  cases t <;> cases ht <;> simp [found, hheld]

/-- A value that is there passes a test that looks for values if one of them is found, or, if the
test is negated, if none is.

**Proof sketch.** By the way in which the test is made. A text is found if one of the needles has
the relation to it, a number if it is one of the operands; where the test is negated, the same
question is asked the other way round. -/
lemma Makes.acceptsPresent_eq {test : Test} {held : Json} (h : Makes t o vs test)
    (hasks : o.textRelation? = some (relation, negated)) (ht : t ≠ .boolean)
    (hpresent : Json.isAbsent (some held) = false) :
    test.acceptsPresent held = (vs.any (found t relation (some held)) != negated) := by
  cases h with
  | text hasks' hsome =>
    cases hasks.symm.trans hasks'
    have hfound : found .string relation (some held) =
        fun v => relation.holds (Text.lowercase v.toText) (Text.lowercase held.toText) := by
      funext v
      simp [found, hpresent]
    rw [Test.acceptsPresent, List.any_map, hfound]
    rfl
  | oneOf hnumeric hsome hread =>
    cases hasks
    rw [Test.acceptsPresent]
    -- no number is found in a value that cannot be read as one
    cases hheld : held.toNumber? with
    | none =>
      rw [any_found_unread hnumeric hheld]
      rfl
    | some y =>
      rw [any_found_numeric hnumeric hread hpresent hheld, Bool.bne_false]
      rfl
  | noneOf hnumeric hsome hread =>
    cases hasks
    rw [Test.acceptsPresent]
    cases hheld : held.toNumber? with
    | none =>
      rw [any_found_unread hnumeric hheld]
      rfl
    | some y =>
      rw [any_found_numeric hnumeric hread hpresent hheld, Bool.bne_true]
      exact NumberTest.accepts_isNot _ y
  | boolean => exact absurd rfl ht
  | isSet | isNotSet | above | below | between | before | after | period => cases hasks

/-- A constraint that looks for values is passed if one of them is found, or, if it is negated, if
none is. -/
theorem Makes.accepts_eq (h : Makes t o vs c.test)
    (hasks : o.textRelation? = some (relation, negated)) (ht : t ≠ .boolean)
    (candidate : Option Json) :
    c.accepts candidate = (vs.any (found t relation candidate) != negated) := by
  cases habsent : Json.isAbsent candidate with
  | true =>
    rw [accepts_of_absent habsent, h.acceptsAbsent_eq (testsPresence_of_asks hasks), hasks,
      any_found_absent habsent, Bool.false_bne]
    rfl
  | false =>
    obtain ⟨held, rfl⟩ := exists_of_present habsent
    rw [accepts_of_present habsent, h.acceptsPresent_eq hasks ht habsent]

/-! ### Values together -/

/-- A submitted constraint with other values. -/
def Spec.withValues (spec : Spec) (vs : List Json) : Spec :=
  { spec with values := vs }

/-- A constraint that is given other values has them. -/
@[simp] lemma Spec.values_withValues (spec : Spec) (vs : List Json) :
    (spec.withValues vs).values = vs := rfl

/-- Values of an operator that looks for them are accepted if there are any and each can be read as
the type.

**Proof sketch.** Such an operator takes one value or more, and bounds in order are asked of ranges
only. -/
lemma exists_compile_iff_reads (spec : Spec) (htype : DataType.ofName? spec.dataType = some t)
    (hoperator : Operator.ofName? spec.operator = some o)
    (hasks : o.textRelation? = some (relation, negated)) (ht : t ≠ .boolean) :
    (∃ c, compile spec = .ok c) ↔
      o ∈ Operator.legal t ∧ spec.values ≠ [] ∧ ∀ v ∈ spec.values, t.Reads v := by
  rw [exists_compile_iff_suit spec htype hoperator (testsPresence_of_asks hasks)]
  refine and_congr_right fun hlegal => ?_
  have harity : o.arity t = .atLeastOne := by
    cases o <;> cases hasks <;> cases t <;>
      first | rfl | exact absurd rfl ht | exact absurd hlegal (by decide)
  have hbetween : o ≠ .between := by
    rintro rfl
    cases hasks
  constructor
  · intro h
    exact ⟨h.ne_nil harity, h.read⟩
  · rintro ⟨hsome, hread⟩
    exact ⟨harity ▸ accepts_atLeastOne.2 hsome, hread, fun h => absurd h hbetween⟩

/-- A truth value is compared with one value only. -/
lemma exists_of_compile_boolean (hc : compile spec = .ok c)
    (htype : DataType.ofName? spec.dataType = some .boolean)
    (hoperator : Operator.ofName? spec.operator = some o)
    (hasks : o.textRelation? = some (relation, negated)) : ∃ v, spec.values = [v] := by
  have harity : o.arity .boolean = .exactly 1 := by cases o <;> cases hasks <;> rfl
  obtain hpresence | hsuit := (makes_of_compile hc htype hoperator).suit
  · rw [testsPresence_of_asks hasks] at hpresence
    cases hpresence
  · obtain ⟨v, hv, -⟩ := hsuit.exists_one harity
    exact ⟨v, hv⟩

/-- Two lists that are not empty are more than one value. -/
lemma append_ne_singleton (hvs : vs ≠ []) (hws : ws ≠ []) (v : Json) : vs ++ ws ≠ [v] := by
  intro h
  have hlength := congrArg List.length h
  have hvs' := List.length_pos_iff.2 hvs
  have hws' := List.length_pos_iff.2 hws
  simp only [List.length_append, List.length_singleton] at hlength
  omega

/-- Lists with the same values find the same. -/
lemma any_congr_mem {us : List Json} (h : ∀ v, v ∈ us ↔ v ∈ vs) (finds : Json → Bool) :
    us.any finds = vs.any finds := by
  rw [Bool.eq_iff_iff, List.any_eq_true, List.any_eq_true]
  exact exists_congr fun v => and_congr_left fun _ => h v

section

variable (htype : DataType.ofName? spec.dataType = some t)
  (hoperator : Operator.ofName? spec.operator = some o)
  (hasks : o.textRelation? = some (relation, negated))
include htype hoperator hasks

/-- Lists of values are accepted together if each of them is, unless the type is that of truth
values.

**Proof sketch.** Truth values need a single operand, and two lists that are not empty have more.
For the other types a list is accepted if all of its values can be read, which is asked value by
value. -/
lemma exists_compile_append (hvs : vs ≠ []) (hws : ws ≠ []) :
    (∃ c, compile (spec.withValues (vs ++ ws)) = .ok c) ↔
      t ≠ .boolean ∧ (∃ left, compile (spec.withValues vs) = .ok left) ∧
        ∃ right, compile (spec.withValues ws) = .ok right := by
  by_cases ht : t = .boolean
  · subst ht
    constructor
    · rintro ⟨c, hc⟩
      obtain ⟨v, hv⟩ := exists_of_compile_boolean hc htype hoperator hasks
      exact absurd hv (append_ne_singleton hvs hws v)
    · rintro ⟨hne, -⟩
      exact absurd rfl hne
  · have hreads := fun us => exists_compile_iff_reads (spec.withValues us) htype hoperator hasks ht
    rw [hreads, hreads, hreads]
    simp only [Spec.withValues, List.forall_mem_append, List.append_eq_nil_iff, hvs, hws, ht, ne_eq,
      not_false_eq_true, false_and, true_and]
    exact ⟨fun ⟨hlegal, hread, hread'⟩ => ⟨⟨hlegal, hread⟩, hlegal, hread'⟩,
      fun ⟨⟨hlegal, hread⟩, _, hread'⟩ => ⟨hlegal, hread, hread'⟩⟩

/-- A value passes the constraint with both lists if it passes one of the two with one list, or, if
the operator is negated, both. -/
lemma accepts_append {left right : Constraint} (hvs : vs ≠ []) (hws : ws ≠ [])
    (hc : compile (spec.withValues (vs ++ ws)) = .ok c)
    (hleft : compile (spec.withValues vs) = .ok left)
    (hright : compile (spec.withValues ws) = .ok right) (candidate : Option Json) :
    c.accepts candidate =
      if negated then left.accepts candidate && right.accepts candidate
      else left.accepts candidate || right.accepts candidate := by
  obtain ⟨ht, -⟩ := (exists_compile_append htype hoperator hasks hvs hws).1 ⟨c, hc⟩
  rw [(makes_of_compile hc htype hoperator).accepts_eq hasks ht candidate,
    (makes_of_compile hleft htype hoperator).accepts_eq hasks ht candidate,
    (makes_of_compile hright htype hoperator).accepts_eq hasks ht candidate]
  simp only [Spec.values_withValues, List.any_append]
  cases negated with
  | false => simp
  | true => simp [Bool.not_or]

/-- Neither the order nor the repetition of values matters for what is accepted, except that a truth
value is compared with one value only. -/
lemma exists_compile_congr {us : List Json} (hmem : ∀ v, v ∈ us ↔ v ∈ vs) (ht : t ≠ .boolean) :
    (∃ c, compile (spec.withValues us) = .ok c) ↔
      ∃ c, compile (spec.withValues vs) = .ok c := by
  have hreads := fun us => exists_compile_iff_reads (spec.withValues us) htype hoperator hasks ht
  rw [hreads, hreads]
  simp only [Spec.withValues, ne_eq, List.eq_nil_iff_forall_not_mem, hmem]

/-- Neither the order nor the repetition of values matters for what passes. -/
lemma accepts_congr {us : List Json} {c' : Constraint} (hmem : ∀ v, v ∈ us ↔ v ∈ vs)
    (hc : compile (spec.withValues us) = .ok c)
    (hc' : compile (spec.withValues vs) = .ok c') (candidate : Option Json) :
    c.accepts candidate = c'.accepts candidate := by
  by_cases ht : t = .boolean
  · -- a truth value is compared in another way, but then both lists are the same single value
    subst ht
    obtain ⟨v, rfl⟩ : ∃ v, us = [v] := exists_of_compile_boolean hc htype hoperator hasks
    obtain ⟨w, rfl⟩ : ∃ w, vs = [w] := exists_of_compile_boolean hc' htype hoperator hasks
    have hvw : v = w := by simpa using hmem v
    subst hvw
    cases hc.symm.trans hc'
    rfl
  · rw [(makes_of_compile hc htype hoperator).accepts_eq hasks ht candidate,
      (makes_of_compile hc' htype hoperator).accepts_eq hasks ht candidate]
    simp only [Spec.values_withValues, any_congr_mem hmem]

end

/-- Values of an operator that looks for them are combined as a set. Two lists of values together
are accepted if and only if each of them is, unless the type is that of truth values, of which there
is one at a time. Then the constraint with both lists is passed if one of the two with one list is,
or, if the operator is negated, if both are, whether there is a value or not and whether it can be
read or not. And neither the order of values nor their repetition matters.

**Proof sketch.** A constraint of this kind is passed if one of its values is found, or none, and
whether a value is found does not depend on the others. -/
theorem compile_append (spec : Spec) (htype : DataType.ofName? spec.dataType = some t)
    (hoperator : Operator.ofName? spec.operator = some o)
    (hasks : o.textRelation? = some (relation, negated)) (hvs : vs ≠ []) (hws : ws ≠ []) :
    ((∃ c, compile (spec.withValues (vs ++ ws)) = .ok c) ↔
        t ≠ .boolean ∧ (∃ left, compile (spec.withValues vs) = .ok left) ∧
          ∃ right, compile (spec.withValues ws) = .ok right) ∧
      (∀ c left right, compile (spec.withValues (vs ++ ws)) = .ok c →
        compile (spec.withValues vs) = .ok left →
        compile (spec.withValues ws) = .ok right → ∀ candidate,
          c.accepts candidate =
            if negated then left.accepts candidate && right.accepts candidate
            else left.accepts candidate || right.accepts candidate) ∧
      ∀ us, (∀ v, v ∈ us ↔ v ∈ vs) →
        (t ≠ .boolean → ((∃ c, compile (spec.withValues us) = .ok c) ↔
          ∃ c, compile (spec.withValues vs) = .ok c)) ∧
        ∀ c c', compile (spec.withValues us) = .ok c →
          compile (spec.withValues vs) = .ok c' →
            ∀ candidate, c.accepts candidate = c'.accepts candidate := by
  refine ⟨exists_compile_append htype hoperator hasks hvs hws, ?_, ?_⟩
  · intro c left right hc hleft hright candidate
    exact accepts_append htype hoperator hasks hvs hws hc hleft hright candidate
  · intro us hmem
    refine ⟨exists_compile_congr htype hoperator hasks hmem, ?_⟩
    intro c c' hc hc' candidate
    exact accepts_congr htype hoperator hasks hmem hc hc' candidate

/-- Whoever is on neither of two plans is not on the one and not on the other, and so is whoever has
no plan. -/
theorem plans_append :
    ∃ c left right,
      compile ⟨"plan", "string", "is_not", [.string "free", .string "pro"]⟩ = .ok c ∧
        compile ⟨"plan", "string", "is_not", [.string "free"]⟩ = .ok left ∧
        compile ⟨"plan", "string", "is_not", [.string "pro"]⟩ = .ok right ∧
        c.accepts none = true ∧ c.accepts (some (.string "PRO")) = false ∧
        ∀ candidate, c.accepts candidate = (left.accepts candidate && right.accepts candidate) := by
  obtain ⟨haccepted, hcombined, -⟩ :=
    compile_append ⟨"plan", "string", "is_not", []⟩
      (by decide +kernel : DataType.ofName? "string" = some .string)
      (by decide : Operator.ofName? "is_not" = some .isNot) rfl
      (by simp : [Json.string "free"] ≠ []) (by simp : [Json.string "pro"] ≠ [])
  have hleft : compile ⟨"plan", "string", "is_not", [.string "free"]⟩ =
      .ok ⟨"plan", .string, .isNot, .text .is true ["free"]⟩ := by decide +kernel
  have hright : compile ⟨"plan", "string", "is_not", [.string "pro"]⟩ =
      .ok ⟨"plan", .string, .isNot, .text .is true ["pro"]⟩ := by decide +kernel
  obtain ⟨c, hc⟩ := haccepted.2 ⟨by simp, ⟨_, hleft⟩, _, hright⟩
  have hboth := hcombined c _ _ hc hleft hright
  exact ⟨c, _, _, hc, hleft, hright, hboth none, (hboth _).trans (by decide +kernel), hboth⟩

end Cohort.Constraint
