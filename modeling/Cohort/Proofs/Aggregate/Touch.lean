import Cohort.Proofs.Aggregate.Chronology
import Cohort.Proofs.Aggregate.Tally
set_option relaxedAutoImplicit false
set_option autoImplicit false

/-!
# Touches

The first and the last touch and the most frequent value are each the value of one event. The first
touch is that of the first event with a value, the last touch that of the last one, and the most
frequent value that of the first event whose value is in a class of the greatest size. So these
results are determined by the moments of events and the sizes of classes, and neither the order in
which events are sorted nor the order of a tally can be seen in them.

## Main definitions

* `Cohort.Aggregate.Present` — events with a value.
* `Cohort.Aggregate.Prevails` — events whose value is in a class of the greatest size.
* `Cohort.Aggregate.IsTouch` — results that are the value of an event.

## Main results

* `Cohort.Aggregate.exists_of_touches` — the event of a touch.
* `Cohort.Aggregate.reduce_isTouch` — touches and the most frequent value are those of certain
  events. -/

namespace Cohort.Aggregate

variable {property : Option String} {events : List Event} {before after : List Json} {v : Json}
  {e : Event}

/-- The property of an event has a value. -/
def Present (property : Option String) (e : Event) : Prop :=
  ∃ v, presentValue? property e = some v

/-- The property of an event has a value, and no value of the property is more frequent. -/
def Prevails (property : Option String) (events : List Event) (e : Event) : Prop :=
  ∃ v, presentValue? property e = some v ∧ ∀ w ∈ presentValues property events,
    frequency (presentValues property events) w ≤ frequency (presentValues property events) v

/-- A value that is there is not null. -/
lemma ne_null_of_presentValue? (h : presentValue? property e = some v) : v ≠ .null := by
  rintro rfl
  obtain ⟨-, hpresent⟩ := Option.filter_eq_some_iff.1 h
  cases hpresent

/-- The touches are the values that are present, in another order. -/
lemma touches_perm (property : Option String) (events : List Event) :
    (touches property events).Perm (presentValues property events) :=
  (List.mergeSort_perm events _).filterMap _

/-- There are no touches if and only if the property is present in none of the events. -/
lemma touches_eq_nil :
    touches property events = [] ↔ ∀ e ∈ events, presentValue? property e = none := by
  rw [← List.perm_nil, (touches_perm property events).congr_left, List.perm_nil, presentValues,
    List.filterMap_eq_nil_iff]

/-- Each touch is the value of an event, and the touches before it are those of events that come
before this one in chronological order. -/
theorem exists_of_touches (h : touches property events = before ++ v :: after) :
    ∃ left e right, chronological events = left ++ e :: right ∧
      presentValue? property e = some v ∧
      (∀ d ∈ left, ∀ w, presentValue? property d = some w → w ∈ before) ∧
      ∀ d ∈ right, ∀ w, presentValue? property d = some w → w ∈ after := by
  obtain ⟨left, rest, hchronological, rfl, hrest⟩ := List.filterMap_eq_append_iff.1 h
  obtain ⟨missing, e, right, rfl, hmissing, he, rfl⟩ := List.filterMap_eq_cons_iff.1 hrest
  refine ⟨left ++ missing, e, right, by simpa using hchronological, he, ?_, ?_⟩
  · intro d hd w hw
    obtain hd | hd := List.mem_append.1 hd
    · exact List.mem_filterMap.2 ⟨d, hd, hw⟩
    · cases (hmissing d hd).symm.trans hw
  · intro d hd w hw
    exact List.mem_filterMap.2 ⟨d, hd, hw⟩

/-- The first touch is that of the first event with a value. -/
lemma opens_of_head? (h : (touches property events).head? = some v) :
    ∃ place e, Opens (Present property) events place e ∧ presentValue? property e = some v := by
  obtain ⟨after, htouches⟩ := List.head?_eq_some_iff.1 h
  rw [← List.nil_append (v :: after)] at htouches
  obtain ⟨left, e, right, hchronological, he, hleft, -⟩ := exists_of_touches htouches
  have hnone : ∀ d ∈ left, ¬ Present property d := by
    rintro d hd ⟨w, hw⟩
    cases hleft d hd w hw
  obtain ⟨place, hopens⟩ := opens_of_chronological hchronological ⟨v, he⟩ hnone
  exact ⟨place, e, hopens, he⟩

/-- The last touch is that of the last event with a value. -/
lemma closes_of_getLast? (h : (touches property events).getLast? = some v) :
    ∃ place e, Closes (Present property) events place e ∧ presentValue? property e = some v := by
  obtain ⟨before, htouches⟩ := List.getLast?_eq_some_iff.1 h
  obtain ⟨left, e, right, hchronological, he, -, hright⟩ := exists_of_touches htouches
  have hnone : ∀ d ∈ right, ¬ Present property d := by
    rintro d hd ⟨w, hw⟩
    cases hright d hd w hw
  obtain ⟨place, hcloses⟩ := closes_of_chronological hchronological ⟨v, he⟩ hnone
  exact ⟨place, e, hcloses, he⟩

/-- The most frequent value is that of the first event whose value is in a class of the greatest
size.

**Proof sketch.** The most frequent value is the first one of the greatest class in chronological
order, so no event before it has a value of such a class. -/
lemma opens_of_mostFrequent? (h : mostFrequent? (touches property events) = some v) :
    ∃ place e, Opens (Prevails property events) events place e ∧
      presentValue? property e = some v := by
  have hfrequency := frequency_perm (touches_perm property events)
  obtain ⟨before, after, htouches, hbefore, -⟩ := mostFrequent?_eq_some h
  obtain ⟨left, e, right, hchronological, he, hleft, -⟩ := exists_of_touches htouches
  have hprevails : Prevails property events e := by
    refine ⟨v, he, ?_⟩
    intro w hw
    rw [← hfrequency, ← hfrequency]
    exact frequency_le_of_mostFrequent? h ((touches_perm property events).mem_iff.2 hw)
  have hnone : ∀ d ∈ left, ¬ Prevails property events d := by
    rintro d hd ⟨w, hw, hmax⟩
    have hless := hbefore w (hleft d hd w hw)
    have hmem : v ∈ presentValues property events := by
      rw [← (touches_perm property events).mem_iff, htouches]
      simp
    rw [hfrequency, hfrequency] at hless
    exact absurd (hmax v hmem) (not_le.2 hless)
  obtain ⟨place, hopens⟩ := opens_of_chronological hchronological hprevails hnone
  exact ⟨place, e, hopens, he⟩

/-! ### Results -/

/-- A result is a touch if it is null where no event has a value, and otherwise the value of the
event that is picked. -/
structure IsTouch (property : Option String) (events : List Event) (picks : ℕ → Event → Prop)
    (result : Json) : Prop where
  /-- It is null only if no event has a value. -/
  eq_null_iff : result = .null ↔ ∀ e ∈ events, presentValue? property e = none
  /-- Otherwise it is the value of the event that is picked. -/
  eq_iff : ∀ v, v ≠ .null →
    (result = v ↔ ∃ place e, picks place e ∧ presentValue? property e = some v)

/-- A result is a touch if it is the value of an event that is picked whenever there is a value, and
no other event is picked.

**Proof sketch.** Without a result there are no values and no event is picked. A result is the value
of a picked event, and there is only one such event. -/
lemma isTouch_getD {result : Option Json} {picks : ℕ → Event → Prop}
    (hnone : result = none ↔ touches property events = [])
    (hsome : ∀ v, result = some v → ∃ place e, picks place e ∧ presentValue? property e = some v)
    (hunique : ∀ place place' d e, picks place d → picks place' e → d = e)
    (hmem : ∀ place e, picks place e → e ∈ events) :
    IsTouch property events picks (result.getD .null) := by
  rw [touches_eq_nil] at hnone
  cases result with
  | none =>
    have hall := hnone.1 rfl
    refine ⟨⟨fun _ => hall, fun _ => rfl⟩, ?_⟩
    intro v hv
    constructor
    · intro hnull
      exact absurd hnull.symm hv
    · rintro ⟨place, e, hpicks, he⟩
      cases (hall e (hmem place e hpicks)).symm.trans he
  | some u =>
    obtain ⟨place, e, hpicks, he⟩ := hsome u rfl
    refine ⟨⟨fun hnull => absurd hnull (ne_null_of_presentValue? he), fun hall => ?_⟩, ?_⟩
    · cases (hall e (hmem place e hpicks)).symm.trans he
    · intro v _
      constructor
      · rintro rfl
        exact ⟨place, e, hpicks, he⟩
      · rintro ⟨place', d, hpicks', hd⟩
        rw [hunique _ _ _ _ hpicks' hpicks, he] at hd
        exact Option.some.inj hd

/-- The touches and the most frequent value are the values of certain events. The first touch is
that of the event with the least time of those with a value, and of several with this time of the
one that arrived first. The last touch is that of the event with the greatest time of them, and of
several of the one that arrived last. The most frequent value is that of the first event, in the
same sense, whose value is in a class of the greatest size; so of several such classes the one that
occurred first wins. All three are null only if no event has a value. The most frequent value can
also be read off a tally, in whatever order its slots are.

**Proof sketch.** The chronological order is that of the moments, so what stands first and last in
it are the events with the least and the greatest moment of those that count. -/
theorem reduce_isTouch (property : Option String) (grouping : Grouping) (events : List Event) :
    IsTouch property events (Opens (Present property) events)
        (reduce .firstTouch property grouping events) ∧
      IsTouch property events (Closes (Present property) events)
        (reduce .lastTouch property grouping events) ∧
      IsTouch property events (Opens (Prevails property events) events)
        (reduce .top property grouping events) ∧
      ∀ slots : List Slot, slots.Perm (tally (touches property events)) →
        reduce .top property grouping events =
          ((slots.argmax Slot.weight).map Slot.value).getD .null := by
  refine ⟨?_, ?_, ?_, ?_⟩
  · exact isTouch_getD List.head?_eq_none_iff (fun _ => opens_of_head?)
      (fun _ _ _ _ => Opens.unique) fun _ _ h => List.mem_of_getElem? h.stands
  · exact isTouch_getD List.getLast?_eq_none_iff (fun _ => closes_of_getLast?)
      (fun _ _ _ _ => Closes.unique) fun _ _ h => List.mem_of_getElem? h.stands
  · exact isTouch_getD mostFrequent?_eq_none (fun _ => opens_of_mostFrequent?)
      (fun _ _ _ _ => Opens.unique) fun _ _ h => List.mem_of_getElem? h.stands
  · intro slots hslots
    rw [reduce, mostFrequent?_eq_argmax ((tallies_tally _).perm hslots)]

/-- Of two visits at the same time the one that arrived first is touched first, and its page is the
most frequent one, although the tally may begin with the other one. -/
theorem simultaneous_touches :
    let visit (page : String) : Event :=
      ⟨"p1", "visit", Index.ofList [("page", .string page)], ⟨0, 0, by decide, by decide⟩⟩
    let events := [visit "b", visit "a"]
    (∃ place e, Opens (Present (some "page")) events place e ∧
        presentValue? (some "page") e = some (.string "b")) ∧
      (∃ place e, Closes (Present (some "page")) events place e ∧
        presentValue? (some "page") e = some (.string "a")) ∧
      reduce .top (some "page") .total events = .string "b" ∧
      (tally (touches (some "page") events)).map Slot.value = [.string "a", .string "b"] := by
  intro visit events
  obtain ⟨hfirst, hlast, -, htally⟩ := reduce_isTouch (some "page") .total events
  have hchronological : chronological events = events :=
    List.mergeSort_of_pairwise (by decide +kernel)
  have htouches : touches (some "page") events = [.string "b", .string "a"] := by
    rw [touches, hchronological]
    decide +kernel
  have hslots : tally (touches (some "page") events) =
      [⟨"s:a", 1, 1, .string "a"⟩, ⟨"s:b", 1, 0, .string "b"⟩] := by
    rw [htouches]
    decide +kernel
  refine ⟨(hfirst.eq_iff _ (by simp)).1 ?_, (hlast.eq_iff _ (by simp)).1 ?_, ?_, ?_⟩
  · rw [reduce, htouches]
    rfl
  · rw [reduce, htouches]
    rfl
  · rw [htally _ (List.Perm.refl _), hslots]
    decide +kernel
  · rw [hslots]
    rfl

end Cohort.Aggregate
