import Cohort.Aggregate.Reduction
import Cohort.Formula.Evaluation
import Cohort.Registry.Snapshot
set_option autoImplicit false

/-!
# Subjects

A subject is a profile with its events as an evaluation sees them: at a present, under the
definitions of its project and within limits. Its attributes are raw or computed. A computed one is
worked out once and kept, and so is whether a scan behind it stopped early.

## Main definitions

* `Cohort.Subject` — a profile as an evaluation sees it.
* `Cohort.Findings` — what an evaluation found so far.
* `Cohort.Subject.valueOf` — the value of an attribute.
* `Cohort.Subject.computedValue`, `Cohort.Subject.computedValues` — computed fields on request.
-/

namespace Cohort

/-- A profile as an evaluation sees it. -/
structure Subject where
  /-- The definitions of the project. -/
  snapshot : Snapshot
  /-- The profile. -/
  profile : Profile
  /-- The events, in the order of their arrival. -/
  events : List Event
  /-- When a scan of the events stops early. -/
  limits : ScanLimits
  /-- The present. -/
  now : Instant

/-- What an evaluation found so far. -/
structure Findings where
  /-- The values of computed fields. -/
  values : Index String Json
  /-- How many computed fields were worked out. -/
  evaluations : Nat
  /-- Whether a scan stopped early. -/
  degraded : Bool
deriving DecidableEq

namespace Findings

/-- Nothing found yet. -/
def none : Findings := ⟨.empty, 0, false⟩

/-- The findings with the value of one more computed field. -/
def record (found : Findings) (name : String) (value : Json) : Findings :=
  { found with values := found.values.insert name value, evaluations := found.evaluations + 1 }

/-- The findings after a scan that may have stopped early. -/
def note (found : Findings) (degraded : Bool) : Findings :=
  { found with degraded := found.degraded || degraded }

end Findings

/-- A computation that looks at attributes. -/
abbrev Lookup (α : Type) := StateM Findings α

/-- The value of a computed field on request. -/
structure ComputedValue where
  /-- The name of the field. -/
  field : String
  /-- The type of the field. -/
  dataType : DataType
  /-- The value. -/
  value : Json
  /-- Whether a scan stopped early. -/
  degraded : Bool
deriving DecidableEq

namespace Subject

/-- The value of an aggregate. -/
def aggregateValue (s : Subject) (a : Aggregate) : Lookup Json := do
  let outcome := a.compute s.limits s.now s.events
  modify (·.note outcome.degraded)
  return outcome.value

/-- The number of computed fields that are not among names. -/
def computedOutside (s : Subject) (names : List String) : Nat :=
  s.snapshot.computed.keys.countP (· ∉ names)

/-- A computed field that is not among names is one that adding it to them leaves out.

**Proof sketch.** Induction on the names of the computed fields. No more of them are left with
another name left out, and the field itself is one less. -/
theorem computedOutside_cons_lt {s : Subject} {names : List String} {name : String}
    {f : ComputedField} (hf : s.snapshot.computed.get? name = some f) (h : name ∉ names) :
    s.computedOutside (name :: names) < s.computedOutside names := by
  have hmem : name ∈ s.snapshot.computed.keys :=
    List.mem_map.2 ⟨_, Index.mem_of_find_eq_some hf, rfl⟩
  unfold computedOutside
  generalize s.snapshot.computed.keys = keys at hmem
  induction keys with
  | nil => simp at hmem
  | cons k keys ih =>
    have hle : keys.countP (· ∉ name :: names) ≤ keys.countP (· ∉ names) :=
      List.countP_mono_left fun j _ hj => by simp_all
    rw [List.countP_cons, List.countP_cons]
    rcases List.mem_cons.1 hmem with rfl | hmem
    · simp only [List.mem_cons, true_or, not_true_eq_false, decide_false, h, not_false_eq_true,
        decide_true, Bool.false_eq_true, if_true, if_false, Nat.add_zero] at hle ⊢
      exact Nat.lt_succ_of_le hle
    · have hlt := ih hmem
      have : (if decide (k ∉ name :: names) = true then 1 else 0) ≤
          if decide (k ∉ names) = true then 1 else 0 := by
        by_cases hk : k ∈ names <;> by_cases hn : k = name <;> simp [hk, hn]
      omega

/-- The value of an attribute while the fields of a path are being worked out. A field on the path
has no value yet; a snapshot whose fields do not read one another in a cycle never asks for one. -/
def valueOn (s : Subject) (path : List String) (name : String) : Lookup Json :=
  match _hf : s.snapshot.computed.get? name with
  | none => return (s.profile.attribute? name).getD .null
  | some f => do
    match (← get).values.get? name with
    | some value => return value
    | none =>
      if _h : name ∈ path then return .null
      else
        let value ← match f.computation with
          | .aggregate a => s.aggregateValue a
          | .formula _ e =>
            Formula.Value.toJson <$> e.evaluate fun read => s.valueOn (name :: path) read
        modify (·.record name value)
        return value
termination_by s.computedOutside path
decreasing_by exact computedOutside_cons_lt _hf _h

/-- The value of an attribute, null if there is none. -/
def valueOf (s : Subject) (name : String) : Lookup Json :=
  s.valueOn [] name

/-- The value of a computed field on request. -/
def computedValue (s : Subject) (name : String) : Lookup (Result ComputedValue) :=
  match s.snapshot.computed.get? name with
  | none => return .error (.notFound .computedField name)
  | some f => do
    let value ← s.valueOf name
    return .ok ⟨f.field, f.dataType, value, (← get).degraded⟩

/-- The values of attributes. -/
def valuesOf (s : Subject) (names : List String) : Lookup (List (String × Json)) :=
  names.mapM fun name => return (name, ← s.valueOf name)

/-- The values of all computed fields under their names. -/
def computedValues (s : Subject) : Lookup (Index String Json) :=
  return .ofList (← s.valuesOf s.snapshot.evaluationOrder)

end Subject

end Cohort
