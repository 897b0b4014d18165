import Mathlib.Data.ENat.Basic
import Cohort.Proofs.Aggregate.Scan
import Cohort.Proofs.Instant.Order
set_option relaxedAutoImplicit false
set_option autoImplicit false

/-!
# How far a scan goes

A scan stops before an event if it has looked at as many as it may, or if it looks at the clock and
the time is up. It looks at the clock for the first time after a whole interval. So both limits
together are one cap on the number of events, and a scan keeps what qualifies in the prefix of that
length. It says that it stopped early if and only if there are more events than that, and a greater
cap only adds to what is kept.

## Main definitions

* `Cohort.ScanLimits.cap` — the number of events that a scan looks at, if there are as many.
* `Cohort.Event.Qualifies` — events that count.

## Main results

* `Cohort.Scan.exists_run_eq` — a scan is that of a prefix.
* `Cohort.Scan.run_capped` — what a scan keeps under a cap. -/

namespace Cohort

/-! ### Caps -/

/-- The number of events after which a scan stops if there is another one: the maximum, and no more
than lie between two looks at the clock if the time is up. -/
def ScanLimits.cap (limits : ScanLimits) : ℕ∞ :=
  match limits.maxEvents, limits.outOfTime with
  | some maxEvents, true => (min maxEvents clockInterval : ℕ)
  | some maxEvents, false => maxEvents
  | none, true => clockInterval
  | none, false => ⊤

namespace ScanLimits

variable {limits : ScanLimits} {n : ℕ}

/-- A scan goes on below its cap.

**Proof sketch.** The cap is the smaller one of the maximum and the interval of the clock, as far as
they count, and below the interval the clock is not read. -/
lemma stopAt_eq_false (h : n < limits.cap) : limits.stopAt n = false := by
  have hclock (hn : n < clockInterval) : ¬ (0 < n ∧ n % clockInterval = 0) := by
    rw [Nat.mod_eq_of_lt hn]
    omega
  obtain ⟨maxEvents, outOfTime⟩ := limits
  cases maxEvents with
  | none =>
    cases outOfTime with
    | false => rfl
    | true =>
      have hlt : n < clockInterval := ENat.natCast_lt_natCast.1 h
      simpa [stopAt] using hclock hlt
  | some maxEvents =>
    cases outOfTime with
    | false =>
      have hlt : n < maxEvents := ENat.natCast_lt_natCast.1 h
      simpa [stopAt] using hlt
    | true =>
      obtain ⟨hlt, hlt'⟩ := lt_min_iff.1 (ENat.natCast_lt_natCast.1 h)
      simpa [stopAt, hlt] using hclock hlt'

/-- A scan stops at its cap.

**Proof sketch.** The cap is reached at the maximum or at the interval of the clock, and there the
limits say so. -/
lemma stopAt_eq_true (h : limits.cap = n) : limits.stopAt n = true := by
  obtain ⟨maxEvents, outOfTime⟩ := limits
  cases maxEvents with
  | none =>
    cases outOfTime with
    | false => exact absurd h (ENat.top_ne_natCast n)
    | true =>
      obtain rfl : clockInterval = n := ENat.natCast_inj.1 h
      decide
  | some maxEvents =>
    cases outOfTime with
    | false =>
      obtain rfl : maxEvents = n := ENat.natCast_inj.1 h
      simp [stopAt]
    | true =>
      obtain rfl : min maxEvents clockInterval = n := ENat.natCast_inj.1 h
      rcases min_choice maxEvents clockInterval with hmin | hmin
      · simp [stopAt, hmin]
      · rw [hmin]
        simp [stopAt, clockInterval]

end ScanLimits

/-! ### Events that count -/

/-- An event qualifies if it has the name, if one is given, lies in the window and passes all
constraints. -/
structure Event.Qualifies (window : Window) (name : Option String) (filters : List Constraint)
    (e : Event) : Prop where
  /-- It has the name. -/
  named : ∀ given ∈ name, e.name = given
  /-- It does not come before the window. -/
  started : window.start.place ≤ e.timestamp.place
  /-- It comes before the end of the window. -/
  notEnded : e.timestamp.place < window.stop.place
  /-- It passes the constraints. -/
  accepted : ∀ c ∈ filters, c.accepts (e.property? c.field) = true

namespace Scan

variable {limits : ScanLimits} {window : Window} {name : Option String} {filters : List Constraint}
  {events : List Event} {e : Event}

/-- The check that an event counts decides whether it qualifies. -/
lemma counts_iff : counts window name filters e = true ↔ e.Qualifies window name filters := by
  have hname : name.all (e.name = ·) = true ↔ ∀ given ∈ name, e.name = given := by
    cases name <;> simp
  rw [counts, Bool.and_eq_true, Bool.and_eq_true, hname, Window.contains_iff,
    Constraint.allAccept, List.all_eq_true]
  constructor
  · rintro ⟨⟨hnamed, hstarted, hended⟩, haccepted⟩
    exact ⟨hnamed, hstarted, hended, haccepted⟩
  · rintro ⟨hnamed, hstarted, hended, haccepted⟩
    exact ⟨⟨hnamed, hstarted, hended⟩, haccepted⟩

/-- Whether an event qualifies can be decided. -/
instance : DecidablePred (Event.Qualifies window name filters) := fun _ =>
  decidable_of_iff _ counts_iff

/-- The events that count are those that qualify. -/
lemma filter_counts (events : List Event) : events.filter (counts window name filters) =
    events.filter (·.Qualifies window name filters) := by
  refine List.filter_congr fun e _ => ?_
  rw [Bool.eq_iff_iff, counts_iff, decide_eq_true_eq]

/-! ### Scans under a cap -/

/-- A scan keeps what qualifies in a prefix of the events, which is all of them unless the cap is
smaller.

**Proof sketch.** The prefix ends at the cap or at the last event, whichever comes first. Before its
end no event stops the scan (`stopAt_eq_false`), and the event behind it does (`stopAt_eq_true`). -/
theorem exists_run_eq (limits : ScanLimits) (window : Window) (name : Option String)
    (filters : List Constraint) (events : List Event) :
    ∃ k : ℕ, k ≤ events.length ∧ k ≤ limits.cap ∧ (k < events.length → limits.cap = k) ∧
      run limits window name filters events =
        ⟨(events.take k).filter (·.Qualifies window name filters), k,
          decide (k < events.length)⟩ := by
  obtain ⟨k, hle, hcap, hreached⟩ : ∃ k : ℕ, k ≤ events.length ∧ k ≤ limits.cap ∧
      (k < events.length → limits.cap = k) := by
    rcases le_or_gt (events.length : ℕ∞) limits.cap with hroom | hfull
    · exact ⟨events.length, le_rfl, hroom, fun hlt => absurd hlt (lt_irrefl _)⟩
    · obtain ⟨k, hk⟩ := ENat.ne_top_iff_exists.1 hfull.ne_top
      rw [← hk] at hfull
      exact ⟨k, (ENat.natCast_lt_natCast.1 hfull).le, hk.le, fun _ => hk.symm⟩
  have hgoes : ∀ j < k, limits.stopAt (0 + j) = false := by
    intro j hj
    rw [Nat.zero_add]
    exact ScanLimits.stopAt_eq_false ((ENat.natCast_lt_natCast.2 hj).trans_le hcap)
  have hstops : k < events.length → limits.stopAt (0 + k) = true := by
    intro hlt
    rw [Nat.zero_add]
    exact ScanLimits.stopAt_eq_true (hreached hlt)
  refine ⟨k, hle, hcap, hreached, ?_⟩
  rw [run, runFrom_eq hgoes hstops, filter_counts, Nat.zero_add, Nat.min_eq_left hle]

/-- A scan keeps some of the events, in their order. -/
lemma sublist_run (limits : ScanLimits) (window : Window) (name : Option String)
    (filters : List Constraint) (events : List Event) :
    (run limits window name filters events).events.Sublist events := by
  obtain ⟨k, -, -, -, hrun⟩ := exists_run_eq limits window name filters events
  rw [hrun]
  exact List.filter_sublist.trans (List.take_sublist k events)

/-- A scan that did not stop early had room for all events. -/
lemma length_le_cap (h : (run limits window name filters events).degraded = false) :
    events.length ≤ limits.cap := by
  obtain ⟨k, hle, hcap, -, hrun⟩ := exists_run_eq limits window name filters events
  rw [hrun, decide_eq_false_iff_not, not_lt] at h
  exact (ENat.natCast_le_natCast.2 h).trans hcap

/-- A scan that has room for all events keeps those that qualify. -/
lemma run_of_length_le_cap (h : events.length ≤ limits.cap) :
    run limits window name filters events =
      ⟨events.filter (·.Qualifies window name filters), events.length, false⟩ := by
  obtain ⟨k, hle, -, hreached, hrun⟩ := exists_run_eq limits window name filters events
  have hk : k = events.length := by
    refine hle.antisymm (not_lt.1 fun hlt => ?_)
    rw [hreached hlt, ENat.natCast_le_natCast] at h
    omega
  rw [hrun, hk, List.take_length, decide_eq_false (lt_irrefl _)]

/-- A scan that did not stop early kept all events that qualify, and so it is with any other events,
if there are no more of them. -/
lemma run_of_not_degraded (h : (run limits window name filters events).degraded = false)
    {others : List Event} (hlength : others.length ≤ events.length) :
    run limits window name filters others =
      ⟨others.filter (·.Qualifies window name filters), others.length, false⟩ :=
  run_of_length_le_cap ((ENat.natCast_le_natCast.2 hlength).trans (length_le_cap h))

/-- Let `k` be the cap of the limits. A scan keeps the events among the first `k` that qualify, in
the order of their arrival, looks at the first `k` or at all if there are fewer, and says that it
stopped early if and only if there are more. Without a cap it keeps all events that qualify. With a
greater cap it keeps the same events, and perhaps others behind them.

**Proof sketch.** In all cases a scan keeps what qualifies in a prefix (`exists_run_eq`), and it is
left to see how long the prefix is. A greater cap leads to a longer one, whose front is the shorter
one. -/
theorem run_capped (limits : ScanLimits) (window : Window) (name : Option String)
    (filters : List Constraint) (events : List Event) :
    (∀ k : ℕ, limits.cap = k → run limits window name filters events =
        ⟨(events.take k).filter (·.Qualifies window name filters), min k events.length,
          decide (k < events.length)⟩) ∧
      (limits.cap = ⊤ → run limits window name filters events =
        ⟨events.filter (·.Qualifies window name filters), events.length, false⟩) ∧
      ∀ wider : ScanLimits, limits.cap ≤ wider.cap →
        (run limits window name filters events).events <+:
          (run wider window name filters events).events := by
  obtain ⟨j, hle, hcap, hreached, hrun⟩ := exists_run_eq limits window name filters events
  refine ⟨?_, ?_, ?_⟩
  · intro k hk
    have hmin : j = min k events.length := by
      rw [hk, ENat.natCast_le_natCast] at hcap
      rw [hk, ENat.natCast_inj] at hreached
      omega
    have htake : events.take (min k events.length) = events.take k := by
      rw [← List.take_take, List.take_length]
    have hlt : min k events.length < events.length ↔ k < events.length := by
      rw [min_lt_iff]
      exact or_iff_left (lt_irrefl _)
    rw [hrun, hmin, htake, decide_eq_decide.2 hlt]
  · intro htop
    have hj : j = events.length := by
      refine hle.antisymm (not_lt.1 fun hlt => ?_)
      exact ENat.top_ne_natCast j (htop.symm.trans (hreached hlt))
    rw [hrun, hj, List.take_length, decide_eq_false (lt_irrefl _)]
  · intro wider hwider
    obtain ⟨j', -, -, hreached', hrun'⟩ := exists_run_eq wider window name filters events
    have hj : j ≤ j' := by
      rcases lt_or_ge j' events.length with hlt | hall
      · rw [hreached' hlt] at hwider
        exact ENat.natCast_le_natCast.1 (hcap.trans hwider)
      · exact hle.trans hall
    rw [hrun, hrun']
    exact (List.take_prefix_take_left hj).filter _

/-- If the time is up, then of 257 events one is not looked at, although more are allowed, and of
256 events none. A maximum of three events keeps the first three of them. -/
theorem visits_capped :
    let visit : Event := ⟨"p1", "visit", Index.ofList [], ⟨0, 0, by decide, by decide⟩⟩
    let window : Window := ⟨Instant.min, ⟨1, 0, by decide, by decide⟩⟩
    let scan (maxEvents n : ℕ) :=
      run ⟨some maxEvents, true⟩ window (some "visit") [] (List.replicate n visit)
    ScanLimits.cap ⟨some 300, true⟩ = (256 : ℕ) ∧
      scan 300 257 = ⟨List.replicate 256 visit, 256, true⟩ ∧
      scan 300 256 = ⟨List.replicate 256 visit, 256, false⟩ ∧
      ScanLimits.cap ⟨some 3, true⟩ ≤ ScanLimits.cap ⟨some 300, true⟩ ∧
      (scan 3 257).events <+: (scan 300 257).events := by
  intro visit window scan
  have hqualifies : visit.Qualifies window (some "visit") [] := by decide +kernel
  have hfilter (n : ℕ) : (List.replicate n visit).filter
      (·.Qualifies window (some "visit") []) = List.replicate n visit := by
    rw [List.filter_replicate, if_pos (decide_eq_true hqualifies)]
  have hcap : ScanLimits.cap ⟨some 300, true⟩ = (256 : ℕ) := rfl
  have hsmaller : ScanLimits.cap ⟨some 3, true⟩ ≤ ScanLimits.cap ⟨some 300, true⟩ :=
    ENat.natCast_le_natCast.2 (by decide)
  have hlong := (run_capped ⟨some 300, true⟩ window (some "visit") []
    (List.replicate 257 visit)).1 256 hcap
  have hshort := (run_capped ⟨some 300, true⟩ window (some "visit") []
    (List.replicate 256 visit)).1 256 hcap
  rw [List.take_replicate, hfilter, List.length_replicate] at hlong hshort
  exact ⟨hcap, hlong, hshort, hsmaller, (run_capped _ _ _ _ _).2.2 _ hsmaller⟩

end Scan

end Cohort
