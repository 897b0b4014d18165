import Mathlib.Data.Finset.Card
import Cohort.Proofs.Aggregate.Cap
import Cohort.Proofs.Aggregate.Payload
import Cohort.Proofs.Result
set_option relaxedAutoImplicit false
set_option autoImplicit false

/-!
# Windows side by side

A window holds its start and not its end. So an instant between the start of one window and the end
of the next lies in one of the two, and a scan of both windows in one keeps what the scans of each
keep, every event once. Counts add up, and the number of distinct values does if none of them occurs
in both windows. A timeframe without an end means the window up to the present, and is divided in
the same way.

## Main definitions

* `Cohort.Aggregate.during` — an aggregate with another timeframe.
* `Cohort.Scan.Splits` — two scans that keep what a third one keeps, before and after an instant.
* `Cohort.Aggregate.Tiles` — two counts that divide a third one.

## Main results

* `Cohort.Aggregate.compile_during` — an aggregate that was accepted, with another timeframe.
* `Cohort.Scan.splits_run` — scans of windows side by side.
* `Cohort.Aggregate.counts_tile` — counts over timeframes side by side. -/

namespace Cohort

variable {a b c now : Instant} {limits : ScanLimits} {events : List Event}

/-! ### Timeframes -/

/-- A timeframe between two instants is accepted if they are in order. -/
lemma Timeframe.compile_absolute (h : a.place ≤ b.place) :
    compile (.absolute a (some b)) = .ok (.absolute a (some b)) := by
  rw [compile, Instant.not_before_iff.2 h]
  rfl

namespace Aggregate

/-- A submitted aggregate with another timeframe. -/
def Spec.during (spec : Spec) (timeframe : Timeframe.Spec) : Spec :=
  { spec with timeframe }

/-- An aggregate with another timeframe. -/
def during (config : Aggregate) (timeframe : Timeframe) : Aggregate :=
  { config with timeframe }

/-- An aggregate that was accepted is accepted with any other timeframe that is.

**Proof sketch.** Of the parts of a specification only the timeframe is replaced, and the other
parts are accepted without regard to it. -/
lemma compile_during {spec : Spec} {config : Aggregate} (h : compile spec = .ok config)
    {submitted : Timeframe.Spec} {timeframe : Timeframe}
    (htimeframe : Timeframe.compile submitted = .ok timeframe) :
    compile (spec.during submitted) = .ok (config.during timeframe) := by
  simp only [compile, Result.bind_eq_ok] at h
  obtain ⟨operation, hoperation, h⟩ := h
  split at h
  case isTrue => cases h
  case isFalse hproperty =>
    simp only [Result.bind_eq_ok, Result.pure_eq_ok] at h
    obtain ⟨grouping, hgrouping, filters, hfilters, -, -, rfl⟩ := h
    simp only [compile, Result.bind_eq_ok]
    refine ⟨operation, hoperation, ?_⟩
    split
    case isTrue hmissing => exact absurd hmissing hproperty
    case isFalse =>
      simp only [Result.bind_eq_ok, Result.pure_eq_ok]
      exact ⟨grouping, hgrouping, filters, hfilters, timeframe, htimeframe, rfl⟩

end Aggregate

/-! ### Scans -/

section Qualifies

variable {name : Option String} {filters : List Constraint} {e : Event}

/-- An event that counts in a window and comes before an instant of it counts in the first part. -/
lemma Event.qualifies_before_iff (hbc : b.place ≤ c.place) :
    e.Qualifies ⟨a, b⟩ name filters ↔
      e.timestamp.before b = true ∧ e.Qualifies ⟨a, c⟩ name filters := by
  rw [Instant.before_iff]
  constructor
  · intro h
    exact ⟨h.notEnded, h.named, h.started, h.notEnded.trans_le hbc, h.accepted⟩
  · rintro ⟨hbefore, h⟩
    exact ⟨h.named, h.started, hbefore, h.accepted⟩

/-- One that does not come before the instant counts in the second part. -/
lemma Event.qualifies_after_iff (hab : a.place ≤ b.place) :
    e.Qualifies ⟨b, c⟩ name filters ↔
      e.timestamp.before b = false ∧ e.Qualifies ⟨a, c⟩ name filters := by
  rw [Instant.not_before_iff]
  constructor
  · intro h
    exact ⟨h.started, h.named, hab.trans h.started, h.notEnded, h.accepted⟩
  · rintro ⟨hafter, h⟩
    exact ⟨h.named, hafter, h.notEnded, h.accepted⟩

end Qualifies

namespace Scan

variable {name : Option String} {filters : List Constraint} {whole earlier later : Scan}

/-- Two scans divide the events that a third one keeps: the first keeps those before an instant, the
second the others. -/
structure Splits (b : Instant) (whole earlier later : Scan) : Prop where
  /-- No scan stopped early. -/
  complete : whole.degraded = false ∧ earlier.degraded = false ∧ later.degraded = false
  /-- The first scan keeps what comes before the instant. -/
  earlier_events : earlier.events = whole.events.filter (·.timestamp.before b)
  /-- The second scan keeps what does not. -/
  later_events : later.events = whole.events.filter (!·.timestamp.before b)
  /-- Every event that is kept is kept by one of the two, and not by both. -/
  once : ∀ e ∈ whole.events, Xor (e ∈ earlier.events) (e ∈ later.events)

/-- Together the two scans keep what the third one keeps, and every event as often. -/
lemma Splits.perm (h : Splits b whole earlier later) :
    (earlier.events ++ later.events).Perm whole.events := by
  rw [h.earlier_events, h.later_events]
  exact List.filter_append_perm _ _

/-- Scans of windows side by side divide what a scan of both in one keeps.

**Proof sketch.** There is room for all events of the whole window, and so for those of either part.
What qualifies in a part is what qualifies in the whole and is on that side of the moment between
them. -/
theorem splits_run (hab : a.place ≤ b.place) (hbc : b.place ≤ c.place)
    (hwhole : (run limits ⟨a, c⟩ name filters events).degraded = false) :
    Splits b (run limits ⟨a, c⟩ name filters events) (run limits ⟨a, b⟩ name filters events)
      (run limits ⟨b, c⟩ name filters events) := by
  have hroom := length_le_cap hwhole
  have hearlier : events.filter (·.Qualifies ⟨a, b⟩ name filters) =
      (events.filter (·.Qualifies ⟨a, c⟩ name filters)).filter (·.timestamp.before b) := by
    rw [List.filter_filter]
    exact List.filter_congr fun e _ => by simp [Event.qualifies_before_iff (a := a) hbc]
  have hlater : events.filter (·.Qualifies ⟨b, c⟩ name filters) =
      (events.filter (·.Qualifies ⟨a, c⟩ name filters)).filter (!·.timestamp.before b) := by
    rw [List.filter_filter]
    exact List.filter_congr fun e _ => by simp [Event.qualifies_after_iff (c := c) hab]
  simp only [run_of_length_le_cap hroom, hearlier, hlater]
  refine ⟨⟨rfl, rfl, rfl⟩, rfl, rfl, fun e he => ?_⟩
  simp only [List.mem_filter, he, true_and]
  cases e.timestamp.before b <;> simp [Xor]

end Scan

/-! ### Counts -/

namespace Aggregate

variable {spec : Spec} {config : Aggregate}

/-- The values by which events are told apart if equal ones count once. -/
def counted (property : Option String) (events : List Event) : Finset Json :=
  (events.map (countedValue property)).toFinset.image Json.rounded

/-- If events are divided, then so are the values by which they are told apart. -/
lemma counted_eq_union (property : Option String) {kept earlier later : List Event}
    (h : (earlier ++ later).Perm kept) :
    counted property kept = counted property earlier ∪ counted property later := by
  rw [counted, counted, counted, ← List.toFinset_eq_of_perm _ _ (h.map _), List.map_append,
    List.toFinset_append, Finset.image_union]

/-- Two counts divide a third one: their scans keep what its scan keeps, before and after an
instant. Numbers of events add up. Distinct values are those of both sides together, so their
numbers add up if and only if no value occurs on both. -/
structure Tiles (b : Instant) (limits : ScanLimits) (now : Instant) (events : List Event)
    (whole earlier later : Aggregate) : Prop where
  /-- The scans divide the events. -/
  scans : Scan.Splits b (whole.scan limits now events) (earlier.scan limits now events)
    (later.scan limits now events)
  /-- Numbers of events add up. -/
  total : whole.grouping = .total → ∃ n m : ℕ,
    n = (earlier.scan limits now events).events.length ∧
      m = (later.scan limits now events).events.length ∧
      (earlier.compute limits now events).value = .ofInt n ∧
      (later.compute limits now events).value = .ofInt m ∧
      (whole.compute limits now events).value = .ofInt (n + m)
  /-- Distinct values are those of both sides together. -/
  unique : whole.grouping = .unique → ∃ values values' : Finset Json,
    values = counted whole.eventProperty (earlier.scan limits now events).events ∧
      values' = counted whole.eventProperty (later.scan limits now events).events ∧
      (earlier.compute limits now events).value = .ofInt values.card ∧
      (later.compute limits now events).value = .ofInt values'.card ∧
      (whole.compute limits now events).value = .ofInt (values ∪ values').card ∧
      ((values ∪ values').card = values.card + values'.card ↔ Disjoint values values')

/-- Counts over timeframes divide the count over a third one if the scans do.

**Proof sketch.** What the third scan keeps is a permutation of what the others keep. So the numbers
of events add up, and the sets of distinct values have a union. -/
lemma tiles_of_splits {whole earlier later : Timeframe} (hcount : config.operation = .count)
    (h : Scan.Splits b ((config.during whole).scan limits now events)
      ((config.during earlier).scan limits now events)
      ((config.during later).scan limits now events)) :
    Tiles b limits now events (config.during whole) (config.during earlier)
      (config.during later) := by
  have hvalue (timeframe : Timeframe) :
      ((config.during timeframe).compute limits now events).value =
        reduce .count config.eventProperty config.grouping
          ((config.during timeframe).scan limits now events).events := by
    rw [← hcount]
    rfl
  refine ⟨h, fun htotal => ?_, fun hunique => ?_⟩
  · refine ⟨_, _, rfl, rfl, ?_⟩
    have hgrouping : config.grouping = .total := htotal
    have hlength := h.perm.length_eq
    rw [List.length_append] at hlength
    simp only [hvalue, hgrouping, reduce, ← hlength, Nat.cast_add, and_self]
  · refine ⟨_, _, rfl, rfl, ?_⟩
    have hgrouping : config.grouping = .unique := hunique
    have hunion := counted_eq_union config.eventProperty h.perm
    have hdistinct (kept : List Event) : reduce .count config.eventProperty .unique kept =
        .ofInt (counted config.eventProperty kept).card := reduce_unique _ _
    simp only [hvalue, hgrouping, hdistinct, hunion]
    exact ⟨rfl, rfl, rfl, Finset.card_union_eq_card_add_card⟩

/-- Let `a`, `b` and `c` be instants in order, and a count with the timeframes from `a` to `b`, from
`b` to `c` and from `a` to `c`, which are all accepted. If the scan does not stop early, the first
two divide the third: every event that it keeps is kept by one of them only, and the numbers of
events add up. If `c` is the present, they also divide the count from `a` on without an end.

**Proof sketch.** The windows from `a` to `b` and from `b` to `c` are side by side, so the scans
divide (`Scan.splits_run`), and the counts with them. A timeframe without an end lasts to the
present. -/
theorem counts_tile (hspec : compile spec = .ok config) (hcount : config.operation = .count)
    (hab : a.place ≤ b.place) (hbc : b.place ≤ c.place)
    (hwhole : ((config.during (.absolute a (some c))).compute limits now events).degraded = false) :
    let earlier := config.during (.absolute a (some b))
    let later := config.during (.absolute b (some c))
    let whole := config.during (.absolute a (some c))
    let ongoing := config.during (.absolute a none)
    compile (spec.during (.absolute a (some b))) = .ok earlier ∧
      compile (spec.during (.absolute b (some c))) = .ok later ∧
      compile (spec.during (.absolute a (some c))) = .ok whole ∧
      compile (spec.during (.absolute a none)) = .ok ongoing ∧
      Tiles b limits now events whole earlier later ∧
      (c = now → Tiles b limits now events ongoing earlier later) := by
  intro earlier later whole ongoing
  have hsplits : Scan.Splits b (whole.scan limits now events) (earlier.scan limits now events)
      (later.scan limits now events) := Scan.splits_run hab hbc hwhole
  refine ⟨compile_during hspec (Timeframe.compile_absolute hab),
    compile_during hspec (Timeframe.compile_absolute hbc),
    compile_during hspec (Timeframe.compile_absolute (hab.trans hbc)),
    compile_during hspec rfl, tiles_of_splits hcount hsplits, ?_⟩
  rintro rfl
  exact tiles_of_splits hcount hsplits

/-- Pages are visited at the seconds 1, 2 and 3, and once between the first two. The visit at second
2 is counted from there on, and the one at second 3, the present, is not counted at all. -/
theorem visits_tile :
    let visit (page : String) (time : Instant) : Event :=
      ⟨"p1", "visit", Index.ofList [("page", .string page)], time⟩
    let first : Instant := ⟨1, 0, by decide, by decide⟩
    let between : Instant := ⟨1, 500000000, by decide, by decide⟩
    let second : Instant := ⟨2, 0, by decide, by decide⟩
    let third : Instant := ⟨3, 0, by decide, by decide⟩
    let events := [visit "b" second, visit "a" first, visit "c" third, visit "b" between]
    let spec : Spec := ⟨"count", .allTime, some "visit", none, none, []⟩
    let visits : Aggregate := ⟨.count, .allTime, some "visit", none, .total, []⟩
    compile spec = .ok visits ∧ visits.operation = .count ∧ first.place ≤ second.place ∧
      second.place ≤ third.place ∧
      ((visits.during (.absolute first (some third))).compute .unlimited third events).degraded =
        false ∧
      Tiles second .unlimited third events (visits.during (.absolute first none))
        (visits.during (.absolute first (some second)))
        (visits.during (.absolute second (some third))) ∧
      ((visits.during (.absolute first (some second))).scan .unlimited third events).events =
        [visit "a" first, visit "b" between] ∧
      ((visits.during (.absolute second (some third))).scan .unlimited third events).events =
        [visit "b" second] ∧
      ((visits.during (.absolute first none)).compute .unlimited third events).value =
        .ofInt 3 := by
  intro visit first between second third events spec visits
  have hspec : compile spec = .ok visits := by decide +kernel
  have hfirst : first.place ≤ second.place := by decide
  have hsecond : second.place ≤ third.place := by decide
  have hwhole : ((visits.during (.absolute first (some third))).compute .unlimited third
      events).degraded = false := by decide +kernel
  obtain ⟨-, -, -, -, -, hongoing⟩ := counts_tile hspec rfl hfirst hsecond hwhole
  exact ⟨hspec, rfl, hfirst, hsecond, hwhole, hongoing rfl, by decide +kernel, by decide +kernel,
    by decide +kernel⟩

end Aggregate

end Cohort
