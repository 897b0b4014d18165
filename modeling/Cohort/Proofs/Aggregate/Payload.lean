import Mathlib.Data.Set.Card
import Cohort.Proofs.Aggregate.Distinct
import Cohort.Proofs.Json.Meaning
set_option relaxedAutoImplicit false
set_option autoImplicit false

/-!
# Payloads that count as one

Without a property, events are told apart by their payloads. A payload is an object, so it is
compared by its JSON text, in which the numbers keep their forms: `3` and `3.0` are the same number
and make different payloads. So there are as many counted payloads as there are payloads, and this
can be more than their meanings. It is not more if all numbers are settled. A property that is a
number itself is replaced by the nearest float first, so there `3` and `3.0` count as one.

## Main results

* `Cohort.Aggregate.reduce_unique` — what is counted if equal values count once.
* `Cohort.Aggregate.reduce_unique_payload` — counted payloads and their meanings. -/

namespace Cohort.Aggregate

/-- If equal values count once, the count is the number of values that differ once numbers are
replaced by the nearest floats. -/
lemma reduce_unique (property : Option String) (events : List Event) :
    reduce .count property .unique events =
      .ofInt ((events.map (countedValue property)).toFinset.image Json.rounded).card := by
  rw [reduce, length_distinct]

/-- A payload is not changed by rounding, which leaves numbers inside objects as they are. -/
lemma image_rounded_payloads (events : List Event) :
    (events.map (countedValue none)).toFinset.image Json.rounded =
      (events.map (countedValue none)).toFinset := by
  refine (Finset.image_congr fun v hv => ?_).trans Finset.image_id
  obtain ⟨e, -, rfl⟩ := List.mem_map.1 (List.mem_toFinset.1 hv)
  rfl

/-- If equal payloads count once, the count is the number of payloads that differ in their members
or in the forms of their numbers. It is at least the number of meanings that payloads have, and it
is this number if and only if no two different payloads mean the same. So it is this number if all
numbers in payloads are settled. If a property is configured, the count is the number of its values
that differ once numbers are replaced by the nearest floats.

**Proof sketch.** No number of a payload is rounded, so the payloads themselves are counted.
Meanings are their image, which is as large exactly if no two payloads have one meaning; settled
payloads never have (`Json.meaning_inj`). -/
theorem reduce_unique_payload (events : List Event) :
    let payloads := (events.map (countedValue none)).toFinset
    let meanings := Json.meaning '' payloads
    reduce .count none .unique events = .ofInt payloads.card ∧
      meanings.ncard ≤ payloads.card ∧
      (meanings.ncard = payloads.card ↔
        ∀ v ∈ payloads, ∀ w ∈ payloads, v.meaning = w.meaning → v = w) ∧
      ((∀ v ∈ payloads, v.IsSettled) → payloads.card = meanings.ncard) ∧
      ∀ p, reduce .count (some p) .unique events =
        .ofInt ((events.map (countedValue (some p))).toFinset.image Json.rounded).card := by
  intro payloads meanings
  have hfinite : (payloads : Set Json).Finite := payloads.finite_toSet
  have hcard : (payloads : Set Json).ncard = payloads.card := Set.ncard_coe_finset payloads
  have hiff : meanings.ncard = payloads.card ↔
      ∀ v ∈ payloads, ∀ w ∈ payloads, v.meaning = w.meaning → v = w := by
    rw [← hcard, Set.ncard_image_iff hfinite]
    exact ⟨fun h v hv w hw => h hv hw, fun h v hv w hw => h v hv w hw⟩
  refine ⟨?_, ?_, hiff, fun hsettled => (hiff.2 ?_).symm, fun p => reduce_unique (some p) events⟩
  · rw [reduce_unique, image_rounded_payloads]
  · rw [← hcard]
    exact Set.ncard_image_le hfinite
  · intro v hv w hw
    exact (Json.meaning_inj (hsettled v hv) (hsettled w hw)).1

/-- Two visits that took half a second and one that took three seconds make two payloads, which mean
two different things. -/
theorem visits_told_apart :
    let visit (n : Json.Number) : Event :=
      ⟨"p1", "visit", Index.ofList [("seconds", .number n)], ⟨0, 0, by decide, by decide⟩⟩
    let events := [visit (.float 0.5), visit (.integer 3), visit (.float 0.5)]
    let payloads := (events.map (countedValue none)).toFinset
    (∀ v ∈ payloads, v.IsSettled) ∧ (Json.meaning '' payloads).ncard = 2 ∧
      reduce .count none .unique events = .ofInt 2 := by
  intro visit events payloads
  have hbinary : Decimal.Binary.ofFloat 0.5 = ⟨false, 2 ^ 52, -53⟩ := by decide +kernel
  have hhalf : (Json.Number.float 0.5).value = 1 / 2 := by
    rw [Json.Number.value, hbinary, Decimal.Binary.value, Decimal.Binary.magnitude]
    norm_num
  have hsettled : (Json.Number.float 0.5).IsSettled := by
    intro i hi h
    have hdouble : (1 : ℚ) = 2 * i := by
      rw [← h, hhalf]
      norm_num
    have : (1 : ℤ) = 2 * i := by exact_mod_cast hdouble
    omega
  have hpayload {n : Json.Number} (hn : n.IsSettled) : (countedValue none (visit n)).IsSettled :=
    .object (List.forall_mem_singleton.2 (.number hn))
  have hall : ∀ v ∈ payloads, v.IsSettled := by
    simp [payloads, events, hpayload hsettled, hpayload (Json.Number.isSettled_integer 3 _)]
  have hcard : payloads.card = 2 := by decide +kernel
  obtain ⟨hreduce, -, -, hmeanings, -⟩ := reduce_unique_payload events
  exact ⟨hall, (hmeanings hall).symm.trans hcard, hreduce.trans (congrArg _ (congrArg _ hcard))⟩

/-- Payloads with `3` and `3.0` mean the same and are counted twice. The numbers themselves are
counted once. -/
theorem forms_told_apart :
    let visit (n : Json.Number) : Event :=
      ⟨"p1", "visit", Index.ofList [("a", .number n)], ⟨0, 0, by decide, by decide⟩⟩
    let whole := visit (.integer 3)
    let float := visit (.float 3.0)
    (countedValue none whole).meaning = (countedValue none float).meaning ∧
      reduce .count none .unique [whole, float] = .ofInt 2 ∧
      reduce .count (some "a") .unique [whole, float] = .ofInt 1 := by
  intro visit whole float
  have hbinary : Decimal.Binary.ofFloat 3.0 = ⟨false, 3 * 2 ^ 51, -51⟩ := by decide +kernel
  have hvalue : (Json.Number.float 3.0).value = (Json.Number.integer 3).value := by
    rw [Json.Number.value, Json.Number.value, hbinary, Decimal.Binary.value,
      Decimal.Binary.magnitude]
    norm_num
  have hpayload (n : Json.Number) :
      (countedValue none (visit n)).meaning = .object [("a", .number n.value)] := rfl
  refine ⟨?_, by decide +kernel, by decide +kernel⟩
  rw [hpayload, hpayload, hvalue]

end Cohort.Aggregate
