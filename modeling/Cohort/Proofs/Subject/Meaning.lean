import Cohort.Proofs.Formula.Evaluation
import Cohort.Proofs.Registry.Ordered
import Cohort.Subject
set_option relaxedAutoImplicit false
set_option autoImplicit false

/-!
# What attributes mean

The value of an attribute has a meaning that knows no look-ups: the stored value, the value of an
aggregate, or the value of a formula in the scope of the meanings of what it mentions. A look-up
finds that meaning as long as all values that it finds recorded are meanings, and it records no
others.

## Main definitions

* `Cohort.Subject.Denotes` — the meaning of an attribute.
* `Cohort.Subject.fieldValue` — one step of a look-up: the recorded value, or one that is worked
  out.
* `Cohort.Subject.Sound` — findings all of which are meanings.
* `Cohort.Subject.Finds` — look-ups that find the meaning of an attribute.

## Main results

* `Cohort.Subject.Denotes.unique` — an attribute has at most one meaning.
* `Cohort.Subject.valueOn_eq_valueOf`, `Cohort.Subject.valueOf_field` — on an ordered snapshot a
  look-up does not depend on the fields that are being worked out.
* `Cohort.Subject.valueOf_finds` — a look-up finds the meaning.
-/

namespace Cohort

namespace Subject

variable {s : Subject} {path : List String} {name : String} {f : ComputedField}

/-- The meaning of an attribute: the value of the aggregate of a computed field, or that of its
formula where each attribute that the formula mentions has its meaning; and the stored value of an
attribute that is no computed field, null if there is none. -/
inductive Denotes (s : Subject) : String → Json → Prop
  | raw {name : String} (absent : s.snapshot.computed.get? name = none) :
      Denotes s name ((s.profile.attribute? name).getD .null)
  | aggregate {name : String} {f : ComputedField} {a : Aggregate}
      (present : s.snapshot.computed.get? name = some f) (computed : f.computation = .aggregate a) :
      Denotes s name (a.compute s.limits s.now s.events).value
  | formula {name : String} {f : ComputedField} {source : String} {e : Formula.Expr}
      {scope : String → Json} (present : s.snapshot.computed.get? name = some f)
      (computed : f.computation = .formula source e)
      (reads : ∀ read ∈ e.identifiers, Denotes s read (scope read)) :
      Denotes s name (Id.run (e.evaluate fun read => pure (scope read))).toJson

/-- An attribute has at most one meaning.

**Proof sketch.** Induction on the first meaning. Two scopes of one formula agree on what the
formula mentions, so the formula has the same value in both. -/
theorem Denotes.unique {v w : Json} (hv : s.Denotes name v) (hw : s.Denotes name w) : v = w := by
  induction hv generalizing w with
  | raw absent =>
    cases hw with
    | raw _ => rfl
    | aggregate present _ => rw [absent] at present; cases present
    | formula present _ _ => rw [absent] at present; cases present
  | aggregate present computed =>
    cases hw with
    | raw absent => rw [absent] at present; cases present
    | aggregate present' computed' =>
      obtain rfl := Option.some.inj (present.symm.trans present')
      obtain rfl := Computation.aggregate.inj (computed.symm.trans computed')
      rfl
    | formula present' computed' _ =>
      obtain rfl := Option.some.inj (present.symm.trans present')
      rw [computed] at computed'
      cases computed'
  | formula present computed reads ih =>
    cases hw with
    | raw absent => rw [absent] at present; cases present
    | aggregate present' computed' =>
      obtain rfl := Option.some.inj (present.symm.trans present')
      rw [computed] at computed'
      cases computed'
    | formula present' computed' reads' =>
      obtain rfl := Option.some.inj (present.symm.trans present')
      obtain ⟨rfl, rfl⟩ := Computation.formula.inj (computed.symm.trans computed')
      rw [Formula.Expr.evaluate_congr fun read hread =>
        congrArg pure (ih read hread (reads' read hread))]

/-! ### One step of a look-up -/

/-- The value of a computed field whose formula looks attributes up in a scope. -/
def workOut (s : Subject) (f : ComputedField) (scope : String → Lookup Json) : Lookup Json :=
  match f.computation with
  | .aggregate a => s.aggregateValue a
  | .formula _ e => Formula.Value.toJson <$> e.evaluate scope

/-- Working an aggregate field out scans the events. -/
lemma workOut_of_aggregate {a : Aggregate} (h : f.computation = .aggregate a)
    (scope : String → Lookup Json) (found : Findings) :
    s.workOut f scope found =
      ((a.compute s.limits s.now s.events).value,
        found.note (a.compute s.limits s.now s.events).degraded) := by
  unfold workOut
  rw [h]
  rfl

/-- The recorded value of a computed field, or the value that is worked out and recorded now. -/
def fieldValue (s : Subject) (name : String) (f : ComputedField) (scope : String → Lookup Json) :
    Lookup Json := do
  match (← get).values.get? name with
  | some value => return value
  | none =>
    let value ← s.workOut f scope
    modify (·.record name value)
    return value

/-- A recorded value is taken, and nothing else happens. -/
lemma fieldValue_of_eq_some {scope : String → Lookup Json} {found : Findings} {v : Json}
    (h : found.values.get? name = some v) : s.fieldValue name f scope found = (v, found) := by
  change (match found.values.get? name with
    | some value => (pure value : Lookup Json)
    | none => _) found = _
  rw [h]
  rfl

/-- A value that is not recorded is worked out and recorded. -/
lemma fieldValue_of_eq_none {scope : String → Lookup Json} {found : Findings}
    (h : found.values.get? name = none) :
    s.fieldValue name f scope found =
      ((s.workOut f scope found).1,
        (s.workOut f scope found).2.record name (s.workOut f scope found).1) := by
  change (match found.values.get? name with
    | some value => (pure value : Lookup Json)
    | none => _) found = _
  rw [h]
  rfl

/-- An attribute that is no computed field is read from the profile. -/
lemma valueOn_raw (h : s.snapshot.computed.get? name = none) :
    s.valueOn path name = pure ((s.profile.attribute? name).getD .null) := by
  rw [valueOn]
  split
  case h_1 => rfl
  case h_2 f hf => rw [h] at hf; cases hf

/-- A computed field that is not being worked out is looked up in one step. -/
lemma valueOn_field (h : s.snapshot.computed.get? name = some f) (hpath : name ∉ path) :
    s.valueOn path name = s.fieldValue name f (s.valueOn (name :: path)) := by
  rw [valueOn]
  split
  case h_1 hnone => rw [hnone] at h; cases h
  case h_2 g hg =>
    obtain rfl : f = g := Option.some.inj (h.symm.trans hg)
    rw [dif_neg hpath]
    unfold fieldValue workOut
    cases f.computation with
    | aggregate a => rfl
    | formula source e => rfl

/-- A computed field that is being worked out has no value unless one is recorded. -/
lemma valueOn_reentry (h : s.snapshot.computed.get? name = some f) (hpath : name ∈ path) :
    s.valueOn path name = fun found => ((found.values.get? name).getD .null, found) := by
  rw [valueOn]
  split
  case h_1 hnone => rw [h] at hnone; cases hnone
  case h_2 =>
    funext found
    rw [dif_pos hpath]
    change (match found.values.get? name with
      | some value => (pure value : Lookup Json)
      | none => pure .null) found = _
    cases found.values.get? name with
    | none => rfl
    | some v => rfl

/-- The value of a field depends on the look-ups of what the field reads, and on no others. -/
lemma fieldValue_congr {scope scope' : String → Lookup Json}
    (h : ∀ read ∈ f.references, scope read = scope' read) :
    s.fieldValue name f scope = s.fieldValue name f scope' := by
  have hwork : s.workOut f scope = s.workOut f scope' := by
    unfold workOut
    cases hf : f.computation with
    | aggregate a => rfl
    | formula source e =>
      rw [ComputedField.references_of_formula hf] at h
      simp only
      rw [Formula.Expr.evaluate_congr h]
  unfold fieldValue
  rw [hwork]

/-- A name that no computed field has is refused. -/
lemma computedValue_of_eq_none (h : s.snapshot.computed.get? name = none) (found : Findings) :
    s.computedValue name found = (.error (.notFound .computedField name), found) := by
  unfold computedValue
  rw [h]
  rfl

/-- A computed field on request has the value that is looked up. -/
lemma computedValue_of_eq_some (h : s.snapshot.computed.get? name = some f) (found : Findings) :
    s.computedValue name found =
      (.ok ⟨f.field, f.dataType, (s.valueOf name found).1, (s.valueOf name found).2.degraded⟩,
        (s.valueOf name found).2) := by
  unfold computedValue
  rw [h]
  rfl

/-! ### Look-ups on ordered snapshots -/

/-- A path that a look-up can take to an attribute of an ordered snapshot: if the attribute is a
computed field, it comes before all fields of the path. -/
def Leads (s : Subject) (path : List String) (name : String) : Prop :=
  s.snapshot.computed.contains name → ∀ p ∈ path, s.snapshot.rank name < s.snapshot.rank p

/-- The empty path leads everywhere. -/
lemma leads_nil : s.Leads [] name := fun _ p hp => by cases hp

/-- A path to a field does not go through the field. -/
lemma Leads.notMem (h : s.Leads path name) (hf : s.snapshot.computed.get? name = some f) :
    name ∉ path := fun hin =>
  Nat.lt_irrefl _ (h (Index.contains_iff.2 ⟨f, hf⟩) name hin)

/-- A path to a field leads on to what the field reads. -/
lemma Leads.cons (hs : s.snapshot.Ordered) (h : s.Leads path name)
    (hf : s.snapshot.computed.get? name = some f) {read : String} (hread : read ∈ f.references) :
    s.Leads (name :: path) read := by
  intro hfield p hp
  have hlt := hs.rank_lt hf read hread hfield
  rcases List.mem_cons.1 hp with rfl | hp
  · exact hlt
  · exact Nat.lt_trans hlt (h (Index.contains_iff.2 ⟨f, hf⟩) p hp)

/-- A look-up does not depend on the path that it takes. -/
theorem valueOn_eq_valueOf (hs : s.snapshot.Ordered) (h : s.Leads path name) :
    s.valueOn path name = s.valueOf name := by
  unfold valueOf
  induction name using hs.induction generalizing path with
  | raw name hf => rw [valueOn_raw hf, valueOn_raw hf]
  | field name f hf ih =>
    rw [valueOn_field hf (h.notMem hf), valueOn_field hf List.not_mem_nil]
    refine fieldValue_congr fun read hread => ?_
    rw [ih read hread (h.cons hs hf hread), ih read hread (leads_nil.cons hs hf hread)]

/-- An attribute that is no computed field is looked up in the profile. -/
lemma valueOf_raw (h : s.snapshot.computed.get? name = none) :
    s.valueOf name = pure ((s.profile.attribute? name).getD .null) :=
  valueOn_raw h

/-- A computed field is looked up in one step with look-ups of what it reads. -/
lemma valueOf_field (hs : s.snapshot.Ordered) (h : s.snapshot.computed.get? name = some f) :
    s.valueOf name = s.fieldValue name f s.valueOf := by
  rw [valueOf, valueOn_field h List.not_mem_nil]
  exact fieldValue_congr fun read hread => valueOn_eq_valueOf hs (leads_nil.cons hs h hread)

/-! ### Look-ups find meanings -/

/-- All recorded values are meanings. -/
def Sound (s : Subject) (found : Findings) : Prop :=
  ∀ name v, found.values.get? name = some v → s.Denotes name v

/-- At first the findings are sound. -/
lemma sound_none : s.Sound .none := fun name v h => by
  simp [Findings.none] at h

/-- The meaning of one more field may be recorded. -/
lemma Sound.record {found : Findings} (h : s.Sound found) {v : Json} (hv : s.Denotes name v) :
    s.Sound (found.record name v) := by
  intro other w hw
  rw [Findings.record, Index.get?_insert] at hw
  split at hw
  case isTrue heq =>
    cases hw
    exact heq ▸ hv
  case isFalse => exact h other w hw

/-- From sound findings the computation leads to a result and to sound findings. -/
def Returns {α : Type} (s : Subject) (x : Lookup α) (made : α → Prop) : Prop :=
  ∀ found, s.Sound found → made (x found).1 ∧ s.Sound (x found).2

/-- From sound findings the look-up leads to the meaning of an attribute. -/
def Finds (s : Subject) (x : Lookup Json) (name : String) : Prop :=
  s.Returns x (s.Denotes name)

/-- A result at once leaves the findings as they are. -/
lemma returns_pure {α : Type} {made : α → Prop} {a : α} (h : made a) :
    s.Returns (pure a) made := fun _ hfound => ⟨h, hfound⟩

/-- Computations in a row lead to what the last of them makes. -/
lemma Returns.bind {α β : Type} {x : Lookup α} {g : α → Lookup β} {made : α → Prop}
    {made' : β → Prop} (hx : s.Returns x made) (hg : ∀ a, made a → s.Returns (g a) made') :
    s.Returns (x >>= g) made' := by
  intro found hfound
  obtain ⟨ha, hfound'⟩ := hx found hfound
  exact hg _ ha _ hfound'

/-- Computations with one certain result, compared with that result. -/
def returning (s : Subject) : Formula.Simulation Lookup Id where
  Related x y := s.Returns x (· = y.run)
  related_pure _ := returns_pure rfl
  related_bind hx hf := hx.bind fun a ha => ha ▸ hf a

/-- Working a field out leads to its meaning if looking up what it reads does.

**Proof sketch.** By the computation. A formula is evaluated in the scope of the meanings with the
same value, since what is looked up has its meaning whatever was found before. -/
lemma workOut_finds (hf : s.snapshot.computed.get? name = some f) {scope : String → Lookup Json}
    (hscope : ∀ read ∈ f.references, s.Finds (scope read) read) :
    s.Finds (s.workOut f scope) name := by
  unfold workOut
  cases hcomputed : f.computation with
  | aggregate a => exact fun _ hfound => ⟨.aggregate hf hcomputed, hfound⟩
  | formula source e =>
    rw [ComputedField.references_of_formula hcomputed] at hscope
    simp only
    -- any sound findings show the meanings; those of an evaluation that just starts are at hand
    have hmeaning : ∀ read ∈ e.identifiers, s.Denotes read (scope read .none).1 :=
      fun read hread => (hscope read hread .none sound_none).1
    have hrelated : s.returning.Related (e.evaluate scope)
        (e.evaluate fun read => pure (scope read .none).1) := by
      refine Formula.Expr.evaluate_related s.returning fun read hread found hfound => ?_
      obtain ⟨hvalue, hfound'⟩ := hscope read hread found hfound
      exact ⟨hvalue.unique (hmeaning read hread), hfound'⟩
    intro found hfound
    obtain ⟨hvalue, hfound'⟩ := hrelated found hfound
    refine ⟨?_, hfound'⟩
    have hdenotes := Denotes.formula hf hcomputed hmeaning
    rw [← hvalue] at hdenotes
    exact hdenotes

/-- So does taking its value, recorded or not. -/
lemma fieldValue_finds (hf : s.snapshot.computed.get? name = some f) {scope : String → Lookup Json}
    (hscope : ∀ read ∈ f.references, s.Finds (scope read) read) :
    s.Finds (s.fieldValue name f scope) name := by
  intro found hfound
  cases hrecorded : found.values.get? name with
  | some v =>
    rw [fieldValue_of_eq_some hrecorded]
    exact ⟨hfound name v hrecorded, hfound⟩
  | none =>
    obtain ⟨hvalue, hfound'⟩ := workOut_finds hf hscope found hfound
    rw [fieldValue_of_eq_none hrecorded]
    exact ⟨hvalue, hfound'.record hvalue⟩

/-- A look-up finds the meaning of the attribute. -/
theorem valueOf_finds (hs : s.snapshot.Ordered) (name : String) :
    s.Finds (s.valueOf name) name := by
  induction name using hs.induction with
  | raw name hf =>
    rw [valueOf_raw hf]
    exact returns_pure (.raw hf)
  | field name f hf ih =>
    rw [valueOf_field hs hf]
    exact fieldValue_finds hf ih

/-- On an ordered snapshot every attribute has exactly one meaning. -/
theorem existsUnique_denotes (hs : s.snapshot.Ordered) (name : String) :
    ∃! v, s.Denotes name v :=
  ⟨_, (valueOf_finds hs name .none sound_none).1, fun _ h =>
    h.unique (valueOf_finds hs name .none sound_none).1⟩

end Subject

end Cohort
