import Cohort.Proofs.Aggregate.Scan
import Cohort.Proofs.Subject.Meaning
set_option relaxedAutoImplicit false
set_option autoImplicit false

/-!
# Subjects that are shown fewer events

A request about an aggregate fetches no more events than that may count. The subject that is made
from them has the same value of the aggregate as the one with the whole history.

## Main definitions

* `Cohort.Subject.seeing` — a subject with other events.
* `Cohort.Subject.Suffices` — a part of the events of a subject that lacks none that an aggregate
  counts.

## Main results

* `Cohort.Subject.aggregateValue_narrowed` — the value of the aggregate is found in the same way.
* `Cohort.Subject.Denotes.narrowed` — a field that is the aggregate keeps its meaning.
-/

namespace Cohort.Subject

variable {s : Subject} {keeps : Event → Bool} {a : Aggregate}

/-- The subject with other events. -/
def seeing (s : Subject) (events : List Event) : Subject := { s with events := events }

/-- The events of a subject that are kept lack none that an aggregate counts. -/
def Suffices (s : Subject) (keeps : Event → Bool) (a : Aggregate) : Prop :=
  ∀ e ∈ s.events,
    Scan.counts (a.timeframe.window s.now) a.eventName a.filters e = true → keeps e = true

/-- The value of an aggregate is found in the same way among the events that are kept. -/
theorem aggregateValue_narrowed (hroom : s.limits.Admit s.events.length)
    (hkeeps : s.Suffices keeps a) :
    (s.seeing (s.events.filter keeps)).aggregateValue a = s.aggregateValue a := by
  obtain ⟨hvalue, hnarrowed, hfull⟩ := Aggregate.compute_narrowed hroom hkeeps
  funext found
  change ((a.compute s.limits s.now (s.events.filter keeps)).value,
      found.note (a.compute s.limits s.now (s.events.filter keeps)).degraded) =
    ((a.compute s.limits s.now s.events).value,
      found.note (a.compute s.limits s.now s.events).degraded)
  rw [hvalue, hnarrowed, hfull]

/-- A field that is an aggregate keeps its meaning among the events that are kept. -/
theorem Denotes.narrowed {name : String} {f : ComputedField} {v : Json}
    (hroom : s.limits.Admit s.events.length) (hkeeps : s.Suffices keeps a)
    (hf : s.snapshot.computed.get? name = some f) (hcomputed : f.computation = .aggregate a)
    (hv : s.Denotes name v) : (s.seeing (s.events.filter keeps)).Denotes name v := by
  rw [hv.unique (.aggregate hf hcomputed),
    ← (Aggregate.compute_narrowed hroom hkeeps).1]
  exact .aggregate (s := s.seeing (s.events.filter keeps)) hf hcomputed

end Cohort.Subject
