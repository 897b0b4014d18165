import Cohort.Membership
import Cohort.Proofs.Subject.Meaning
set_option relaxedAutoImplicit false
set_option autoImplicit false

/-!
# Evaluations within limits

A scan that stops early is noted, and the note stays. So an evaluation that ends without the note
went through the same steps as it would have without limits, and has the same result.

## Main definitions

* `Cohort.Subject.under` — a subject within other limits.
* `Cohort.Lookup.Exact` — a computation that does what another does unless it notes that a scan
  stopped early.

## Main results

* `Cohort.Scan.run_eq_unlimited` — a scan that did not stop early keeps what a scan without limits
  keeps.
* `Cohort.Subject.valueOn_exact`, `Cohort.Segment.membershipIn_exact` — look-ups and memberships are
  exact.
* `Cohort.Subject.computedValue_unlimited`, `Cohort.Segment.membership_unlimited` — answers that are
  not marked as degraded are those without limits.
-/

namespace Cohort

/-! ### Scans -/

/-- Without limits no scan is stopped. -/
@[simp] lemma ScanLimits.stopAt_unlimited (scanned : Nat) : unlimited.stopAt scanned = false := rfl

/-- A scan that did not stop early looked at all events.

**Proof sketch.** Induction on the events. The scan did not stop before the first of them, and what
follows it did not stop early either. -/
lemma Scan.runFrom_eq_unlimited {limits : ScanLimits} {counts : Event → Bool} {scanned : Nat}
    {events : List Event} (h : (runFrom limits counts scanned events).degraded = false) :
    runFrom limits counts scanned events = runFrom .unlimited counts scanned events := by
  induction events generalizing scanned with
  | nil => rfl
  | cons e es ih =>
    simp only [runFrom, ScanLimits.stopAt_unlimited, Bool.false_eq_true, if_false] at h ⊢
    split at h
    case isTrue => cases h
    case isFalse hstop =>
      rw [if_neg hstop, ih h]

/-- A scan that did not stop early keeps what a scan without limits keeps. -/
theorem Scan.run_eq_unlimited {limits : ScanLimits} {window : Window} {name : Option String}
    {filters : List Constraint} {events : List Event}
    (h : (run limits window name filters events).degraded = false) :
    run limits window name filters events = run .unlimited window name filters events :=
  runFrom_eq_unlimited h

/-- An aggregate whose scan did not stop early has the value that it has without limits. -/
lemma Aggregate.compute_eq_unlimited {limits : ScanLimits} {now : Instant} {a : Aggregate}
    {events : List Event} (h : (a.compute limits now events).degraded = false) :
    a.compute limits now events = a.compute .unlimited now events := by
  unfold compute scan at h ⊢
  simp only at h ⊢
  rw [Scan.run_eq_unlimited h]

/-! ### Exact computations -/

/-- A computation that does what another one does, unless it notes that a scan stopped early. It
never takes such a note back. -/
structure Lookup.Exact {α : Type} (x y : Lookup α) : Prop where
  /-- A note stays. -/
  sticky : ∀ found, found.degraded = true → (x found).2.degraded = true
  /-- Without a note in the end both do the same. -/
  agree : ∀ found, (x found).2.degraded = false → x found = y found

namespace Lookup.Exact

variable {α β : Type} {x y : Lookup α} {f g : α → Lookup β}

/-- A computation that takes no note back does what it does. -/
lemma refl (h : ∀ found, found.degraded = true → (x found).2.degraded = true) : x.Exact x :=
  ⟨h, fun _ _ => rfl⟩

/-- A result at once is exact. -/
lemma pure (a : α) : Lookup.Exact (Pure.pure a) (Pure.pure a) :=
  refl fun _ h => h

/-- To look at the findings is exact. -/
lemma get : Lookup.Exact (MonadState.get : Lookup Findings) MonadState.get :=
  refl fun _ h => h

/-- Exact computations in a row are exact: if there is no note in the end, then there was none in
between.

**Proof sketch.** A note stays once it is made. So there was none after the first computation
either, and both steps are exact. -/
lemma bind (hx : x.Exact y) (hf : ∀ a, (f a).Exact (g a)) : Lookup.Exact (x >>= f) (y >>= g) where
  sticky found h := (hf _).sticky _ (hx.sticky found h)
  agree found h := by
    have hbetween : (x found).2.degraded = false := by
      cases hnote : (x found).2.degraded with
      | false => rfl
      | true =>
        have hend := (hf (x found).1).sticky _ hnote
        exact absurd (hend.symm.trans h) (by decide)
    have hfirst : x found = y found := hx.agree found hbetween
    have hsecond : f (x found).1 (x found).2 = g (x found).1 (x found).2 := (hf _).agree _ h
    calc (x >>= f) found = f (x found).1 (x found).2 := rfl
      _ = g (x found).1 (x found).2 := hsecond
      _ = g (y found).1 (y found).2 := by rw [hfirst]
      _ = (y >>= g) found := rfl

/-- Exact computations for all elements of a list are exact in a row. -/
lemma mapM {ι : Type} {f g : ι → Lookup α} (h : ∀ i, (f i).Exact (g i)) (as : List ι) :
    Lookup.Exact (as.mapM f) (as.mapM g) := by
  induction as with
  | nil =>
    rw [List.mapM_nil, List.mapM_nil]
    exact pure []
  | cons i as ih =>
    rw [List.mapM_cons, List.mapM_cons]
    exact (h i).bind fun a => ih.bind fun rest => pure (a :: rest)

/-- Exactness as a relation that evaluations of formulas keep. -/
def simulation : Formula.Simulation Lookup Lookup where
  Related := Lookup.Exact
  related_pure := pure
  related_bind := bind

end Lookup.Exact

/-! ### Look-ups -/

namespace Subject

/-- The subject within other limits. -/
def under (s : Subject) (limits : ScanLimits) : Subject :=
  { s with limits := limits }

variable {s : Subject} {path : List String} {name : String} {f : ComputedField}

/-- The value of an aggregate is exact.

**Proof sketch.** The value makes a note if its scan stopped early, and else it is the unlimited
one. -/
lemma aggregateValue_exact (s : Subject) (a : Aggregate) :
    (s.aggregateValue a).Exact ((s.under .unlimited).aggregateValue a) where
  sticky found h := by
    change (found.degraded || _) = true
    rw [h, Bool.true_or]
  agree found h := by
    have hcompute : (a.compute s.limits s.now s.events).degraded = false :=
      (Bool.or_eq_false_iff.1 h).2
    have hvalue := Aggregate.compute_eq_unlimited hcompute
    change (_, found.note _) = (_, found.note _)
    rw [hvalue]
    rfl

/-- The value of a field is exact if what the field reads is looked up exactly.

**Proof sketch.** By the computation. A value that was recorded is returned either way, and a value
that is worked out is recorded in both with the same note. -/
lemma fieldValue_exact {scope scope' : String → Lookup Json}
    (h : ∀ read ∈ f.references, (scope read).Exact (scope' read)) :
    (s.fieldValue name f scope).Exact ((s.under .unlimited).fieldValue name f scope') := by
  have hwork : (s.workOut f scope).Exact ((s.under .unlimited).workOut f scope') := by
    unfold workOut
    cases hf : f.computation with
    | aggregate a => exact s.aggregateValue_exact a
    | formula source e =>
      rw [ComputedField.references_of_formula hf] at h
      exact (Formula.Expr.evaluate_related Lookup.Exact.simulation h).bind fun v =>
        Lookup.Exact.pure v.toJson
  unfold fieldValue
  refine Lookup.Exact.get.bind fun found => ?_
  cases found.values.get? name with
  | some v => exact Lookup.Exact.pure v
  | none =>
    refine hwork.bind fun v => ?_
    exact (Lookup.Exact.refl fun _ hnote => hnote).bind fun _ => Lookup.Exact.pure v

/-- Every look-up is exact.

**Proof sketch.** Along the recursion of look-ups. Both look-ups take the same path, since the
definitions are the same, and at every step they find the same recorded values as long as no scan
stopped early. -/
theorem valueOn_exact (s : Subject) (path : List String) (name : String) :
    (s.valueOn path name).Exact ((s.under .unlimited).valueOn path name) := by
  cases hf : s.snapshot.computed.get? name with
  | none =>
    rw [valueOn_raw hf, valueOn_raw (s := s.under .unlimited) hf]
    exact Lookup.Exact.pure _
  | some f =>
    by_cases hpath : name ∈ path
    · have hreentry := valueOn_reentry hf hpath
      have hunlimited := valueOn_reentry (s := s.under .unlimited) hf hpath
      constructor
      · intro found hfound
        rw [hreentry]
        exact hfound
      · intro found _
        rw [hreentry, hunlimited]
    · rw [valueOn_field hf hpath, valueOn_field (s := s.under .unlimited) hf hpath]
      exact fieldValue_exact fun read _ => valueOn_exact s (name :: path) read
termination_by s.computedOutside path
decreasing_by exact computedOutside_cons_lt hf hpath

/-- The look-up of an attribute is exact: without a note it finds what it finds without limits. -/
lemma valueOf_exact (s : Subject) (name : String) :
    (s.valueOf name).Exact ((s.under .unlimited).valueOf name) :=
  s.valueOn_exact [] name

/-- A computed field on request that is not marked as degraded is the one without limits. -/
theorem computedValue_unlimited {v : ComputedValue}
    (h : (s.computedValue name .none).1 = .ok v) (hv : v.degraded = false) :
    ((s.under .unlimited).computedValue name .none).1 = .ok v := by
  cases hf : s.snapshot.computed.get? name with
  | none =>
    rw [computedValue_of_eq_none hf] at h
    cases h
  | some f =>
    rw [computedValue_of_eq_some hf] at h
    rw [computedValue_of_eq_some (s := s.under .unlimited) hf]
    have hnote : (s.valueOf name .none).2.degraded = false := by
      obtain rfl := Except.ok.inj h
      exact hv
    rw [← (s.valueOf_exact name).agree .none hnote]
    exact h

end Subject

/-! ### Memberships -/

/-- Whether a subject passes a filter is decided exactly. -/
lemma Filter.accepts_exact (s : Subject) (filter : Filter) :
    (filter.accepts s).Exact (filter.accepts (s.under .unlimited)) := by
  cases filter with
  | event name constraints threshold timeframe =>
    constructor
    · intro found h
      change (found.degraded || _) = true
      rw [h, Bool.true_or]
    · intro found h
      have hscan := Scan.run_eq_unlimited (Bool.or_eq_false_iff.1 h).2
      change (acceptsEvents threshold (Scan.run _ _ _ _ _).events, found.note _) = _
      rw [hscan]
      rfl
  | property name constraints =>
    exact (s.valueOf_exact name).bind fun v => Lookup.Exact.pure _

namespace Segment

/-- Whether a subject passes filters is decided exactly.

**Proof sketch.** Induction on the filters. The evaluation goes on behind those that are passed. -/
lemma acceptsAll_exact (s : Subject) (filters : List Filter) :
    (acceptsAll s filters).Exact (acceptsAll (s.under .unlimited) filters) := by
  unfold acceptsAll
  induction filters with
  | nil => exact Lookup.Exact.pure true
  | cons filter filters ih =>
    refine (filter.accepts_exact s).bind fun accepted => ?_
    cases accepted with
    | true => exact ih
    | false => exact Lookup.Exact.pure false

/-- A membership is decided exactly. -/
theorem membershipIn_exact (g : Segment) (s : Subject) :
    (g.membershipIn s).Exact (g.membershipIn (s.under .unlimited)) :=
  (acceptsAll_exact s g.filters).bind fun _ =>
    Lookup.Exact.get.bind fun _ => Lookup.Exact.pure _

/-- A membership that is not marked as degraded is the one without limits. -/
theorem membership_unlimited {g : Segment} {s : Subject} (h : (g.membership s).degraded = false) :
    g.membership (s.under .unlimited) = g.membership s := by
  have hstate : (g.membershipIn s .none).2.degraded = false := h
  unfold membership
  rw [(membershipIn_exact g s).agree .none hstate]

end Segment

end Cohort
