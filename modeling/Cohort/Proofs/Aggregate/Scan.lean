import Mathlib.Tactic.Lemma
import Cohort.Aggregate.Reduction
set_option relaxedAutoImplicit false
set_option autoImplicit false

/-!
# Scans with room

A scan goes through events up to the first place at which its limits stop it. If the limits leave
room for all events, then it keeps those that count, and it does not matter whether others were
sorted out before. So an aggregate has the same value over all events of a profile and over a part
of them, as long as no event that counts is missing in that part.

## Main definitions

* `Cohort.ScanLimits.Admit` — limits that leave room for a number of events.

## Main results

* `Cohort.Scan.runFrom_eq` — a scan keeps what counts before the place where it stops.
* `Cohort.Scan.run_of_admit` — a scan with room keeps everything that counts.
* `Cohort.Aggregate.compute_narrowed` — an aggregate has the same value over a part of the events
  that lacks none that counts.
-/

namespace Cohort

/-- Limits that do not stop a scan of so many events. -/
def ScanLimits.Admit (limits : ScanLimits) (n : Nat) : Prop :=
  ∀ scanned < n, limits.stopAt scanned = false

/-- Limits that admit a scan admit every shorter one. -/
lemma ScanLimits.Admit.mono {limits : ScanLimits} {m n : Nat} (h : limits.Admit n) (hle : m ≤ n) :
    limits.Admit m := fun scanned hlt => h scanned (Nat.lt_of_lt_of_le hlt hle)

/-- A number of events that is not above the maximum is admitted as long as the time is not up. -/
lemma ScanLimits.admit_of_le {maxEvents n : Nat} (h : n ≤ maxEvents) :
    ScanLimits.Admit ⟨some maxEvents, false⟩ n := by
  intro scanned hlt
  have hnot : ¬ maxEvents ≤ scanned := Nat.not_le.2 (Nat.lt_of_lt_of_le hlt h)
  simp [stopAt, hnot]

namespace Scan

variable {limits : ScanLimits} {events : List Event}

/-- A scan that is not stopped at the next `k` events and is stopped after them, if there are more,
keeps those among them that count.

**Proof sketch.** Induction on the events. With `k = 0` the scan stops at once; otherwise it looks
at the first event and goes on with `k - 1`. -/
theorem runFrom_eq {counts : Event → Bool} {scanned k : Nat}
    (hgoes : ∀ j < k, limits.stopAt (scanned + j) = false)
    (hstops : k < events.length → limits.stopAt (scanned + k) = true) :
    runFrom limits counts scanned events =
      ⟨(events.take k).filter counts, scanned + min k events.length,
        decide (k < events.length)⟩ := by
  induction events generalizing scanned k with
  | nil => simp [runFrom]
  | cons e es ih =>
    cases k with
    | zero =>
      have hstop : limits.stopAt scanned = true := hstops (Nat.succ_pos _)
      simp [runFrom, hstop]
    | succ k =>
      have hgo : limits.stopAt scanned = false := hgoes 0 (Nat.succ_pos k)
      have hgoes' : ∀ j < k, limits.stopAt (scanned + 1 + j) = false := by
        intro j hj
        rw [Nat.add_assoc, Nat.add_comm 1]
        exact hgoes (j + 1) (Nat.succ_lt_succ hj)
      have hstops' : k < es.length → limits.stopAt (scanned + 1 + k) = true := by
        intro hk
        rw [Nat.add_assoc, Nat.add_comm 1]
        exact hstops (Nat.succ_lt_succ hk)
      have hrest := ih hgoes' hstops'
      rw [runFrom, hgo, hrest]
      simp only [Bool.false_eq_true, if_false, List.take_succ_cons, List.filter_cons,
        List.length_cons, Nat.succ_lt_succ_iff, Nat.add_min_add_right]
      congr 1
      omega

/-- A scan with room for all events keeps those that count. -/
theorem run_of_admit {window : Window} {name : Option String} {filters : List Constraint}
    (h : limits.Admit events.length) :
    run limits window name filters events =
      ⟨events.filter (counts window name filters), events.length, false⟩ := by
  unfold run
  rw [runFrom_eq (k := events.length)]
  · simp
  · intro j hj
    rw [Nat.zero_add]
    exact h j hj
  · intro hlt
    exact absurd hlt (Nat.lt_irrefl _)

end Scan

/-- An aggregate has the same value over a part of the events that lacks none that counts, and in
neither case its scan stops early. -/
theorem Aggregate.compute_narrowed {limits : ScanLimits} {now : Instant} {a : Aggregate}
    {events : List Event} {keeps : Event → Bool} (hroom : limits.Admit events.length)
    (hkeeps : ∀ e ∈ events,
      Scan.counts (a.timeframe.window now) a.eventName a.filters e = true → keeps e = true) :
    (a.compute limits now (events.filter keeps)).value = (a.compute limits now events).value ∧
      (a.compute limits now (events.filter keeps)).degraded = false ∧
      (a.compute limits now events).degraded = false := by
  have hnarrow : (events.filter keeps).filter
      (Scan.counts (a.timeframe.window now) a.eventName a.filters) =
      events.filter (Scan.counts (a.timeframe.window now) a.eventName a.filters) := by
    rw [List.filter_filter]
    refine List.filter_congr fun e he => ?_
    cases hcounts : Scan.counts (a.timeframe.window now) a.eventName a.filters e with
    | false => rfl
    | true => rw [hkeeps e he hcounts]; rfl
  unfold compute scan
  rw [Scan.run_of_admit hroom, Scan.run_of_admit (hroom.mono (List.length_filter_le _ _)), hnarrow]
  exact ⟨rfl, rfl, rfl⟩

end Cohort
