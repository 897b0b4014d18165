import Cohort.Proofs.Subject.Meaning
set_option relaxedAutoImplicit false
set_option autoImplicit false

/-!
# Sessions

A session makes requests to one subject, one after another, and keeps what it found. Each answer
gives the meanings of the attributes that it is about, whatever was asked before.

## Main definitions

* `Cohort.Subject.Request`, `Cohort.Subject.Answer` — what one can ask of a subject, and its
  answers.
* `Cohort.Subject.Meets` — an answer that gives the meanings that a request asks for.
* `Cohort.Subject.answers` — the answers of a session.
* `Cohort.Subject.strictValueOn` — a look-up without a value for a field that is being worked out.

## Main results

* `Cohort.Subject.answers_meet` — on an ordered snapshot all answers give the meanings.
* `Cohort.Subject.strictValueOn_eq_lift` — a field is never looked up while it is being worked out.
* `Cohort.Subject.session_after` — both hold after any operations on a registry.
-/

namespace Cohort.Subject

variable {s : Subject} {path : List String} {name : String} {f : ComputedField}

/-- What one can ask of a subject. -/
inductive Request where
  /-- The value of an attribute. -/
  | value (name : String)
  /-- The value of a computed field, with its type. -/
  | field (name : String)
  /-- The values of all computed fields. -/
  | allFields

/-- What a subject answers. -/
inductive Answer where
  | value (v : Json)
  | field (outcome : Result ComputedValue)
  | values (values : Index String Json)

/-- The answer to a request in the course of a session. -/
def answer (s : Subject) : Request → Lookup Answer
  | .value name => do return .value (← s.valueOf name)
  | .field name => do return .field (← s.computedValue name)
  | .allFields => do return .values (← s.computedValues)

/-- The answers of a session. -/
def answers (s : Subject) (requests : List Request) : List Answer :=
  (requests.mapM s.answer Findings.none).1

/-- An answer that gives the meanings that a request asks for. A field on request also says whether
a scan stopped early so far, which is no part of its meaning. -/
inductive Meets (s : Subject) : Request → Answer → Prop
  | value {name : String} {v : Json} (meaning : s.Denotes name v) : Meets s (.value name) (.value v)
  | field {name : String} {f : ComputedField} {v : Json} {degraded : Bool}
      (present : s.snapshot.computed.get? name = some f) (meaning : s.Denotes name v) :
      Meets s (.field name) (.field (.ok ⟨name, f.dataType, v, degraded⟩))
  | unknown {name : String} (absent : s.snapshot.computed.get? name = none) :
      Meets s (.field name) (.field (.error (.notFound .computedField name)))
  | allFields {values : Index String Json}
      (meanings : ∀ name v, values.get? name = some v ↔
        s.snapshot.computed.contains name ∧ s.Denotes name v) :
      Meets s .allFields (.values values)

/-! ### Answers -/

/-- Computations in a row lead to results that are all as they should be.

**Proof sketch.** Induction on the list. -/
lemma Returns.mapM {α β : Type} {g : α → Lookup β} {made : α → β → Prop} {as : List α}
    (h : ∀ a ∈ as, s.Returns (g a) (made a)) : s.Returns (as.mapM g) (List.Forall₂ made as) := by
  induction as with
  | nil =>
    rw [List.mapM_nil]
    exact returns_pure .nil
  | cons a as ih =>
    rw [List.mapM_cons]
    refine (h a List.mem_cons_self).bind fun b hb => ?_
    refine (ih fun a' ha' => h a' (List.mem_cons_of_mem _ ha')).bind fun bs hbs => ?_
    exact returns_pure (.cons hb hbs)

/-- The values that are found are listed with their names. -/
lemma valuesOf_returns (hs : s.snapshot.Ordered) (names : List String) :
    s.Returns (s.valuesOf names)
      (List.Forall₂ (fun name e => e.1 = name ∧ s.Denotes name e.2) names) := by
  unfold valuesOf
  refine Returns.mapM fun name _ => (valueOf_finds hs name).bind fun v hv => ?_
  exact returns_pure ⟨rfl, hv⟩

/-- The values of all fields are their meanings.

**Proof sketch.** The entries are the fields in the order of evaluation with their meanings, and
this order has just the fields. A name may have one entry only, as its meaning is unique. -/
lemma computedValues_returns (hs : s.snapshot.Ordered) :
    s.Returns s.computedValues fun values => ∀ name v, values.get? name = some v ↔
      s.snapshot.computed.contains name ∧ s.Denotes name v := by
  unfold computedValues
  refine (valuesOf_returns hs _).bind fun entries hentries => returns_pure fun name v => ?_
  have hmem : ∀ e ∈ entries, e.1 ∈ s.snapshot.evaluationOrder ∧ s.Denotes e.1 e.2 := by
    intro e he
    obtain ⟨i, hi, rfl⟩ := List.mem_iff_getElem.1 he
    obtain ⟨hlength, hget⟩ := List.forall₂_iff_get.1 hentries
    obtain ⟨hname, hdenotes⟩ := hget i (hlength ▸ hi) hi
    simp only [List.get_eq_getElem] at hname hdenotes
    rw [hname]
    exact ⟨List.getElem_mem _, hdenotes⟩
  have hall : ∀ name ∈ s.snapshot.evaluationOrder, ∃ e ∈ entries, e.1 = name := by
    intro name hname
    obtain ⟨i, hi, rfl⟩ := List.mem_iff_getElem.1 hname
    obtain ⟨hlength, hget⟩ := List.forall₂_iff_get.1 hentries
    exact ⟨entries[i], List.getElem_mem _, (hget i hi (hlength ▸ hi)).1⟩
  have hfield : s.snapshot.computed.contains name ↔ name ∈ s.snapshot.evaluationOrder := by
    rw [hs.perm.mem_iff, Index.mem_keys, Index.contains_iff]
  rw [Index.get?_ofList fun e he e' he' heq =>
    (hmem e he).2.unique (heq ▸ (hmem e' he').2), hfield]
  constructor
  · exact fun he => hmem _ he
  · rintro ⟨hname, hdenotes⟩
    obtain ⟨e, he, rfl⟩ := hall name hname
    rwa [← (hmem e he).2.unique hdenotes]

/-- Every answer gives the meanings that the request asks for.

**Proof sketch.** By the request, from what the look-ups of it find. -/
lemma answer_meets (hs : s.snapshot.Ordered) (request : Request) :
    s.Returns (s.answer request) (s.Meets request) := by
  cases request with
  | value name => exact (valueOf_finds hs name).bind fun v hv => returns_pure (.value hv)
  | field name =>
    intro found hfound
    cases hf : s.snapshot.computed.get? name with
    | none =>
      change s.Meets _ (.field (s.computedValue name found).1) ∧
        s.Sound (s.computedValue name found).2
      rw [computedValue_of_eq_none hf]
      exact ⟨.unknown hf, hfound⟩
    | some f =>
      obtain ⟨hvalue, hfound'⟩ := valueOf_finds hs name found hfound
      change s.Meets _ (.field (s.computedValue name found).1) ∧
        s.Sound (s.computedValue name found).2
      rw [computedValue_of_eq_some hf, hs.named name f hf]
      exact ⟨.field hf hvalue, hfound'⟩
  | allFields =>
    exact (computedValues_returns hs).bind fun values hvalues => returns_pure (.allFields hvalues)

/-- On an ordered snapshot all answers of a session give the meanings that are asked for. -/
theorem answers_meet (hs : s.snapshot.Ordered) (requests : List Request) :
    List.Forall₂ s.Meets requests (s.answers requests) :=
  (Returns.mapM (fun request _ => answer_meets hs request) .none sound_none).1

/-! ### Strict look-ups -/

/-- A look-up that fails where `valueOn` has no value: at a field that is being worked out. -/
def strictValueOn (s : Subject) (path : List String) (name : String) : OptionT Lookup Json :=
  match _hf : s.snapshot.computed.get? name with
  | none => return (s.profile.attribute? name).getD .null
  | some f => do
    match (← get).values.get? name with
    | some value => return value
    | none =>
      if _h : name ∈ path then failure
      else
        let value ← match f.computation with
          | .aggregate a => OptionT.lift (s.aggregateValue a)
          | .formula _ e =>
            Formula.Value.toJson <$> e.evaluate fun read => s.strictValueOn (name :: path) read
        modify (·.record name value)
        return value
termination_by s.computedOutside path
decreasing_by exact computedOutside_cons_lt _hf _h

/-- Computations that may fail, compared with ones that they agree with and do not fail. -/
def agreeing : Formula.Simulation (OptionT Lookup) Lookup where
  Related x y := x = OptionT.lift y
  related_pure _ := rfl
  related_bind hx hf := by
    subst hx
    rw [funext hf]
    rfl

/-- On an ordered snapshot a field is never looked up while it is being worked out.

**Proof sketch.** Induction along the order of the fields. What a formula reads comes before the
fields that are being worked out, so the checked evaluation goes on like the plain one, step by
step. -/
theorem strictValueOn_eq_lift (hs : s.snapshot.Ordered) (h : s.Leads path name) :
    s.strictValueOn path name = OptionT.lift (s.valueOn path name) := by
  induction name using hs.induction generalizing path with
  | raw name hf =>
    rw [valueOn_raw hf, strictValueOn]
    split
    case h_1 => rfl
    case h_2 f hf' => rw [hf] at hf'; cases hf'
  | field name f hf ih =>
    rw [valueOn_field hf (h.notMem hf), strictValueOn]
    split
    case h_1 hf' => rw [hf] at hf'; cases hf'
    case h_2 g hg =>
      obtain rfl : f = g := Option.some.inj (hf.symm.trans hg)
      -- the field is not on the path, so it is not being worked out
      rw [dif_neg (h.notMem hf)]
      refine agreeing.related_bind (y := get) rfl fun found => ?_
      cases found.values.get? name with
      | some v => exact agreeing.related_pure v
      | none =>
        unfold workOut
        cases hcomputed : f.computation with
        | aggregate a => rfl
        | formula source e =>
          have hreferences := ComputedField.references_of_formula hcomputed
          have hwork : e.evaluate (s.strictValueOn (name :: path)) =
              OptionT.lift (e.evaluate (s.valueOn (name :: path))) := by
            refine Formula.Expr.evaluate_related agreeing fun read hread => ?_
            rw [← hreferences] at hread
            exact ih read hread (h.cons hs hf hread)
          change (Formula.Value.toJson <$> e.evaluate (s.strictValueOn (name :: path)) >>= _) = _
          rw [hwork]
          rfl

/-- The look-ups of a session mean what they should after any operations on a registry. Every
attribute has exactly one meaning, so that the recursion of a look-up ends; no look-up comes back to
a field that is being worked out, whatever was found before; and every answer of every session gives
the meanings that are asked for, so that no value depends on what was looked up before. -/
theorem session_after (steps : List (String × Registry.Operation)) (project : String)
    (profile : Profile) (events : List Event) (limits : ScanLimits) (now : Instant) :
    let s : Subject := ⟨(Registry.after steps).snapshot project, profile, events, limits, now⟩
    (∀ name, ∃! v, s.Denotes name v) ∧
      (∀ name, s.strictValueOn [] name = OptionT.lift (s.valueOf name)) ∧
      ∀ requests, List.Forall₂ s.Meets requests (s.answers requests) := by
  intro s
  have hs : s.snapshot.Ordered := Registry.ordered_after steps project
  exact ⟨existsUnique_denotes hs, fun _ => strictValueOn_eq_lift hs leads_nil, answers_meet hs⟩

end Cohort.Subject
