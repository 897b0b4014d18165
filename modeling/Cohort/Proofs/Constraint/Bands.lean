import Cohort.Proofs.Constraint.Legality
import Cohort.Proofs.Instant.Order
set_option relaxedAutoImplicit false
set_option autoImplicit false

/-!
# Bands of a line

Two bounds divide a line into three bands: what is below the lower bound, what lies between the two,
and what is above the upper bound. A bound belongs to the band in the middle. Constraints ask for
these bands with operators of their own, and those of dates are other ones than those of numbers.
The values of such a type lie on a line, and each constraint asks for its band. So each value that
can be read as the type passes exactly one of the three constraints, and what is not there or cannot
be read passes none.

## Main definitions

* `Cohort.DataType.place?` — where a value lies on the line of its type.
* `Cohort.Band` — the bands of a line.
* `Cohort.Band.operator`, `Cohort.Band.operands` — how a constraint asks for a band.

## Main results

* `Cohort.Band.existsUnique_holds` — a place lies in exactly one band.
* `Cohort.Constraint.Makes.accepts_iff_holds` — a constraint for a band is passed by what lies in
  it.
* `Cohort.Constraint.existsUnique_band` — the constraints for the bands divide the values of a type.
-/

namespace Cohort

/-! ### Places of values -/

/-- Where a number lies on a line. -/
def Decimal.place (x : Float) : ℤ ×ₗ ℕ :=
  toLex (numericKey x, 0)

namespace DataType

variable {t : DataType} {v w : Json} {low high : ℤ ×ₗ ℕ}

/-- Where a value lies on the line of its type, if it can be read as the type. Numbers and durations
lie on one line, instants on another one. -/
def place? (t : DataType) (v : Json) : Option (ℤ ×ₗ ℕ) :=
  match t with
  | .number | .duration => v.toNumber?.map Decimal.place
  | .date => v.toInstant?.map Instant.place
  | .string | .boolean => none

/-- On the line of a numeric type a value has the place of the number it is read as. -/
lemma place?_numeric (ht : t.isNumeric = true) :
    t.place? v = v.toNumber?.map Decimal.place := by
  cases t <;> first | rfl | cases ht

/-- A value has a place on the line of a numeric type if it is read as a number with this place. -/
lemma place?_numeric_eq_some (ht : t.isNumeric = true) :
    t.place? v = some low ↔ ∃ x, v.toNumber? = some x ∧ Decimal.place x = low := by
  rw [place?_numeric ht, Option.map_eq_some_iff]

/-- A value has a place on the line of dates if it is read as an instant with this place. -/
lemma place?_date_eq_some :
    DataType.date.place? v = some low ↔ ∃ a, v.toInstant? = some a ∧ a.place = low := by
  rw [place?, Option.map_eq_some_iff]

/-- Values that lie on the line of a type are those that can be read as it. -/
lemma isSome_place? (ht : t.isNumeric = true ∨ t = .date) :
    (t.place? v).isSome = true ↔ t.Reads v := by
  obtain ht | rfl := ht
  · rw [place?_numeric ht, Option.isSome_map, Constraint.reads_numeric ht]
  · rw [place?, Option.isSome_map]
    rfl

/-- Numbers compare as their places do. -/
lemma below_iff_place {x y : Float} (hv : v.toNumber? = some x) (hw : w.toNumber? = some y) :
    Decimal.below x y = true ↔ Decimal.place x < Decimal.place y := by
  rw [Decimal.place, Decimal.place, Prod.Lex.toLex_lt_toLex,
    Decimal.below_iff (Json.isFinite_of_toNumber? hv) (Json.isFinite_of_toNumber? hw)]
  simp

/-- Numbers are at most one another as their places are. -/
lemma atMost_iff_place {x y : Float} (hv : v.toNumber? = some x) (hw : w.toNumber? = some y) :
    Decimal.atMost x y = true ↔ Decimal.place x ≤ Decimal.place y := by
  rw [Constraint.atMost_numbers_iff hv hw, ← not_lt, ← below_iff_place hw hv, Bool.not_eq_true]

/-- A value is at most another one if both lie on the line of the type and its place is not behind
that of the other one.

**Proof sketch.** Numbers and dates have an order of their own, and in both it is the order of the
places. -/
lemma atMost_iff (ht : t.isNumeric = true ∨ t = .date) :
    t.AtMost v w ↔
      ∃ low high, t.place? v = some low ∧ t.place? w = some high ∧ low ≤ high := by
  constructor
  · rintro (⟨hnumeric, hx, hy, hle⟩ | ⟨ha, hb, hle⟩)
    · exact ⟨_, _, (place?_numeric_eq_some hnumeric).2 ⟨_, hx, rfl⟩,
        (place?_numeric_eq_some hnumeric).2 ⟨_, hy, rfl⟩, (atMost_iff_place hx hy).1 hle⟩
    · exact ⟨_, _, place?_date_eq_some.2 ⟨_, ha, rfl⟩, place?_date_eq_some.2 ⟨_, hb, rfl⟩,
        Instant.not_before_iff.1 hle⟩
  · rintro ⟨low, high, hlow, hhigh, hle⟩
    obtain ht | rfl := ht
    · obtain ⟨x, hx, rfl⟩ := (place?_numeric_eq_some ht).1 hlow
      obtain ⟨y, hy, rfl⟩ := (place?_numeric_eq_some ht).1 hhigh
      exact .numbers ht hx hy ((atMost_iff_place hx hy).2 hle)
    · obtain ⟨a, ha, rfl⟩ := place?_date_eq_some.1 hlow
      obtain ⟨b, hb, rfl⟩ := place?_date_eq_some.1 hhigh
      exact .dates ha hb (Instant.not_before_iff.2 hle)

/-- A value is there and can be read as the type. -/
def Finds (t : DataType) (candidate : Option Json) : Prop :=
  ∃ held, candidate = some held ∧ Json.isAbsent candidate = false ∧ t.Reads held

end DataType

/-! ### Bands -/

/-- A band of a line with two bounds. -/
inductive Band where
  /-- Below the lower bound. -/
  | below
  /-- Between the bounds. -/
  | within
  /-- Above the upper bound. -/
  | above
deriving DecidableEq, Repr

namespace Band

/-- A place lies in a band. -/
def Holds {α : Type} [LinearOrder α] (low high : α) (band : Band) (place : α) : Prop :=
  match band with
  | .below => place < low
  | .within => low ≤ place ∧ place ≤ high
  | .above => high < place

/-- If the bounds are in order, then each place lies in exactly one band.

**Proof sketch.** A place below the lower bound is in the first band only, one above the upper bound
in the last only, and any other one lies between the bounds. -/
theorem existsUnique_holds {α : Type} [LinearOrder α] {low high : α} (hle : low ≤ high)
    (place : α) : ∃! band : Band, band.Holds low high place := by
  rcases lt_or_ge place low with hbelow | hlow
  · refine ⟨.below, hbelow, ?_⟩
    rintro (_ | _ | _) hband
    · rfl
    · exact absurd hbelow (not_lt.2 hband.1)
    · exact absurd (hle.trans_lt hband) (not_lt.2 hbelow.le)
  rcases lt_or_ge high place with habove | hhigh
  · refine ⟨.above, habove, ?_⟩
    rintro (_ | _ | _) hband
    · exact absurd hband (not_lt.2 hlow)
    · exact absurd habove (not_lt.2 hband.2)
    · rfl
  · refine ⟨.within, ⟨hlow, hhigh⟩, ?_⟩
    rintro (_ | _ | _) hband
    · exact absurd hband (not_lt.2 hlow)
    · rfl
    · exact absurd hband (not_lt.2 hhigh)

/-- The operator that asks for a band. -/
def operator : Band → DataType → Operator
  | .below, .date => .before
  | .below, _ => .lessThan
  | .within, _ => .between
  | .above, .date => .after
  | .above, _ => .greaterThan

/-- The operands with which an operator asks for a band. -/
def operands : Band → Json → Json → List Json
  | .below, low, _ => [low]
  | .within, low, high => [low, high]
  | .above, _, high => [high]

/-- The test of a number for a band. -/
def numberTest (low high : Float) : Band → Constraint.NumberTest
  | .below => .below low
  | .within => .between low high
  | .above => .above high

/-- The test of an instant for a band. -/
def dateTest (low high : Instant) : Band → Constraint.DateTest
  | .below => .before low
  | .within => .between low high
  | .above => .after high

/-- The test of a band accepts the numbers whose places lie in it. -/
lemma accepts_numberTest {u v w : Json} {x y z : Float} (hv : v.toNumber? = some x)
    (hw : w.toNumber? = some y) (hu : u.toNumber? = some z) (band : Band) :
    (band.numberTest x y).accepts z = true ↔
      band.Holds (Decimal.place x) (Decimal.place y) (Decimal.place z) := by
  cases band with
  | below => exact DataType.below_iff_place hu hv
  | within =>
    rw [numberTest, Constraint.NumberTest.accepts, Bool.and_eq_true,
      DataType.atMost_iff_place hv hu, DataType.atMost_iff_place hu hw]
    rfl
  | above => exact DataType.below_iff_place hw hu

/-- The test of a band accepts the instants whose places lie in it. -/
lemma accepts_dateTest (a b held : Instant) (band : Band) :
    (band.dateTest a b).accepts held = true ↔ band.Holds a.place b.place held.place := by
  cases band with
  | below => exact Instant.before_iff
  | within =>
    rw [dateTest, Constraint.DateTest.accepts, Bool.and_eq_true, Bool.not_eq_true',
      Bool.not_eq_true', Instant.not_before_iff, Instant.not_before_iff]
    rfl
  | above => exact Instant.before_iff

/-- The operator of a band may be used with every type that has a line. -/
lemma operator_mem_legal {t : DataType} (ht : t.isNumeric = true ∨ t = .date) (band : Band) :
    band.operator t ∈ Operator.legal t := by
  obtain ht | rfl := ht
  · cases t <;> cases ht <;> cases band <;> decide
  · cases band <;> decide

/-- The operator of a band relates no texts. -/
lemma textRelation?_operator (band : Band) (t : DataType) :
    (band.operator t).textRelation? = none := by
  cases band <;> cases t <;> rfl

/-- The operator of a band does not ask whether there is a value. -/
lemma testsPresence_operator (band : Band) (t : DataType) :
    (band.operator t).testsPresence = false := by
  cases band <;> cases t <;> rfl

end Band

/-! ### Constraints for bands -/

namespace Constraint

variable {c : Constraint} {test : Test} {t : DataType} {v w : Json} {low high : ℤ ×ₗ ℕ}
  {band : Band}

/-- On numbers, the bounds of a band make its number test and no other test.

**Proof sketch.** The operator of a band makes tests in one way only, from the bounds that the band
needs, and these are read as the given numbers. -/
lemma Makes.eq_numberTest {x y : Float} (ht : t.isNumeric = true)
    (h : Makes t (band.operator t) (band.operands v w) test) (hv : v.toNumber? = some x)
    (hw : w.toNumber? = some y) : test = .number (band.numberTest x y) := by
  -- the operators of a duration are those of a number, but only for a type that is known
  have hoperator : band.operator t = band.operator .number := by
    cases t <;> cases ht <;> cases band <;> rfl
  rw [hoperator] at h
  cases band
  case below =>
    cases h with
    | below _ hread =>
      cases hv.symm.trans hread
      rfl
    | text hasks | boolean hasks => cases hasks
  case within =>
    cases h with
    | between _ hlow hhigh =>
      cases hv.symm.trans hlow
      cases hw.symm.trans hhigh
      rfl
    | period => cases ht
    | text hasks => cases hasks
  case above =>
    cases h with
    | above _ hread =>
      cases hw.symm.trans hread
      rfl
    | text hasks | boolean hasks => cases hasks

/-- On dates, the bounds of a band make its date test and no other test.

**Proof sketch.** The operator of a band makes tests in one way only, from the bounds that the band
needs, and these are read as the given instants. -/
lemma Makes.eq_dateTest {a b : Instant}
    (h : Makes .date (band.operator .date) (band.operands v w) test) (hv : v.toInstant? = some a)
    (hw : w.toInstant? = some b) : test = .date (band.dateTest a b) := by
  cases band
  case below =>
    cases h with
    | before hread =>
      cases hv.symm.trans hread
      rfl
  case within =>
    cases h with
    | period hlow hhigh =>
      cases hv.symm.trans hlow
      cases hw.symm.trans hhigh
      rfl
    | between hnumeric => cases hnumeric
  case above =>
    cases h with
    | after hread =>
      cases hw.symm.trans hread
      rfl

/-- What passes the test for a band is what lies in it.

**Proof sketch.** Both kinds of lines are gone through. What cannot be read has no place and passes
no test; what can be read passes the test if its place lies in the band. -/
lemma Makes.acceptsPresent_iff_holds (ht : t.isNumeric = true ∨ t = .date)
    (h : Makes t (band.operator t) (band.operands v w) test) (hlow : t.place? v = some low)
    (hhigh : t.place? w = some high) (held : Json) :
    test.acceptsPresent held = true ↔
      ∃ place, t.place? held = some place ∧ band.Holds low high place := by
  obtain ht | rfl := ht
  · obtain ⟨x, hx, rfl⟩ := (DataType.place?_numeric_eq_some ht).1 hlow
    obtain ⟨y, hy, rfl⟩ := (DataType.place?_numeric_eq_some ht).1 hhigh
    rw [h.eq_numberTest ht hx hy, DataType.place?_numeric ht]
    cases hheld : held.toNumber? with
    | none =>
      cases band <;> simp [Test.acceptsPresent, Test.isNegated, hheld, Band.numberTest]
    | some z => simp [Test.acceptsPresent, hheld, Band.accepts_numberTest hx hy hheld]
  · obtain ⟨a, ha, rfl⟩ := DataType.place?_date_eq_some.1 hlow
    obtain ⟨b, hb, rfl⟩ := DataType.place?_date_eq_some.1 hhigh
    rw [h.eq_dateTest ha hb, DataType.place?]
    cases hheld : held.toInstant? with
    | none => simp [Test.acceptsPresent, hheld]
    | some place => simp [Test.acceptsPresent, hheld, Band.accepts_dateTest]

/-- A constraint for a band is passed by the values that are there and lie in it. -/
theorem Makes.accepts_iff_holds (ht : t.isNumeric = true ∨ t = .date)
    (h : Makes t (band.operator t) (band.operands v w) c.test) (hlow : t.place? v = some low)
    (hhigh : t.place? w = some high) (candidate : Option Json) :
    c.accepts candidate = true ↔
      ∃ held place, candidate = some held ∧ Json.isAbsent candidate = false ∧
        t.place? held = some place ∧ band.Holds low high place := by
  cases habsent : Json.isAbsent candidate with
  | true =>
    rw [accepts_of_absent habsent, h.acceptsAbsent_eq (band.testsPresence_operator t),
      band.textRelation?_operator t]
    simp
  | false =>
    obtain ⟨held, rfl⟩ := exists_of_present habsent
    rw [accepts_of_present habsent, h.acceptsPresent_iff_holds ht hlow hhigh]
    simp

section

variable {c : Band → Constraint} {candidate : Option Json} (ht : t.isNumeric = true ∨ t = .date)
  (hmakes : ∀ band : Band, Makes t (band.operator t) (band.operands v w) (c band).test)
  (hle : t.AtMost v w)
include ht hmakes hle

/-- A value that can be read as the type passes exactly one of the constraints for the bands. -/
lemma existsUnique_accepts (hfinds : t.Finds candidate) :
    ∃! band, (c band).accepts candidate = true := by
  obtain ⟨low, high, hlow, hhigh, hle⟩ := (DataType.atMost_iff ht).1 hle
  obtain ⟨held, rfl, hpresent, hread⟩ := hfinds
  obtain ⟨place, hplace⟩ := Option.isSome_iff_exists.1 ((DataType.isSome_place? ht).2 hread)
  have hholds : ∀ band, (c band).accepts (some held) = true ↔ band.Holds low high place := by
    intro band
    rw [(hmakes band).accepts_iff_holds ht hlow hhigh]
    constructor
    · rintro ⟨_, _, ⟨⟩, -, hplace', hband⟩
      cases hplace.symm.trans hplace'
      exact hband
    · intro hband
      exact ⟨held, place, rfl, hpresent, hplace, hband⟩
  simpa only [hholds] using Band.existsUnique_holds hle place

/-- What is not there or cannot be read as the type passes no constraint for a band. -/
lemma accepts_eq_false (hnot : ¬ t.Finds candidate) (band : Band) :
    (c band).accepts candidate = false := by
  obtain ⟨low, high, hlow, hhigh, -⟩ := (DataType.atMost_iff ht).1 hle
  rw [← Bool.not_eq_true, (hmakes band).accepts_iff_holds ht hlow hhigh]
  rintro ⟨held, place, hheld, hpresent, hplace, -⟩
  have hread := (DataType.isSome_place? ht).1 (Option.isSome_of_eq_some hplace)
  exact hnot ⟨held, hheld, hpresent, hread⟩

end

/-- The constraints for the bands of a line divide the values of its type. The constraint for a band
with one bound is accepted if the bound can be read as the type, and the one for the band between
two bounds if both can and are in order. If all three are accepted, then a value that is there and
can be read as the type passes exactly one of them, and everything else passes none.

**Proof sketch.** The values that can be read as the type have places on a line, and a constraint
for a band is passed by those whose place lies in the band. -/
theorem existsUnique_band (field typeName : String) (words : Band → String) (v w : Json)
    (ht : t.isNumeric = true ∨ t = .date) (htype : DataType.ofName? typeName = some t)
    (hwords : ∀ band, Operator.ofName? (words band) = some (band.operator t)) :
    ((∃ c, compile ⟨field, typeName, words .below, [v]⟩ = .ok c) ↔ t.Reads v) ∧
      ((∃ c, compile ⟨field, typeName, words .above, [w]⟩ = .ok c) ↔ t.Reads w) ∧
      ((∃ c, compile ⟨field, typeName, words .within, [v, w]⟩ = .ok c) ↔ t.AtMost v w) ∧
      ∀ c : Band → Constraint,
        (∀ band, compile ⟨field, typeName, words band, band.operands v w⟩ = .ok (c band)) →
        ∀ candidate,
          (t.Finds candidate → ∃! band, (c band).accepts candidate = true) ∧
            (¬ t.Finds candidate → ∀ band, (c band).accepts candidate = false) := by
  have harity : (Band.below.operator t).arity t = .exactly 1 ∧
      (Band.above.operator t).arity t = .exactly 1 := by
    obtain ht | rfl := ht
    · cases t <;> cases ht <;> exact ⟨rfl, rfl⟩
    · exact ⟨rfl, rfl⟩
  have hsuit : ∀ band : Band,
      (∃ c, compile ⟨field, typeName, words band, band.operands v w⟩ = .ok c) ↔
        Suit t (band.operator t) (band.operands v w) :=
    fun band =>
      (exists_compile_iff_suit ⟨field, typeName, words band, band.operands v w⟩ htype (hwords band)
        (band.testsPresence_operator t)).trans (and_iff_right (band.operator_mem_legal ht))
  refine ⟨?_, ?_, ?_, ?_⟩
  · exact (hsuit .below).trans (suit_one_iff harity.1)
  · exact (hsuit .above).trans (suit_one_iff harity.2)
  · exact (hsuit .within).trans suit_two_iff
  · intro c hc candidate
    have hmakes := fun band => makes_of_compile (hc band) htype (hwords band)
    have hle : t.AtMost v w := suit_two_iff.1 ((hsuit .within).1 ⟨_, hc .within⟩)
    exact ⟨existsUnique_accepts ht hmakes hle, accepts_eq_false ht hmakes hle⟩

/-- An age of thirty lies in the band from eighteen to thirty and in no other one, and a missing age
lies in none. -/
theorem age_bands :
    ∃ c : Band → Constraint,
      (∀ band, compile ⟨"age", "number", (band.operator .number).name,
        band.operands (.number (.integer 18)) (.string "30")⟩ = .ok (c band)) ∧
      (∃! band, (c band).accepts (some (.string " 30.0 ")) = true) ∧
      (c .within).accepts (some (.string " 30.0 ")) = true ∧
      ∀ band, (c band).accepts (some (.string "")) = false := by
  have hwords : ∀ band : Band,
      Operator.ofName? (band.operator .number).name = some (band.operator .number) := by
    rintro (_ | _ | _) <;> decide +kernel
  obtain ⟨-, -, -, hdivide⟩ := existsUnique_band "age" "number"
    (fun band => (band.operator .number).name) (.number (.integer 18)) (.string "30") (.inl rfl)
    (by decide +kernel : DataType.ofName? "number" = some .number) hwords
  let c : Band → Constraint := fun band =>
    ⟨"age", .number, band.operator .number, .number (band.numberTest 18 30)⟩
  have hc : ∀ band, compile ⟨"age", "number", (band.operator .number).name,
      band.operands (.number (.integer 18)) (.string "30")⟩ = .ok (c band) := by
    rintro (_ | _ | _) <;> decide +kernel
  have hread : (Json.string " 30.0 ").toNumber?.isSome = true := by decide +kernel
  refine ⟨c, hc, (hdivide c hc _).1 ⟨_, rfl, rfl, hread⟩, by decide +kernel, ?_⟩
  refine (hdivide c hc _).2 ?_
  rintro ⟨_, _, habsent, -⟩
  cases habsent

end Constraint

end Cohort
