import Mathlib.Data.Finset.Dedup
import Mathlib.Data.Finset.Image
import Cohort.Aggregate.Reduction
import Cohort.Proofs.Json.Exact
import Cohort.Proofs.Json.Number
import Cohort.Proofs.Json.Printer
set_option relaxedAutoImplicit false
set_option autoImplicit false

/-!
# Values that count as one

Values count as one if they have the same text, and the text of a number is that of the nearest
float. So to count values is to count what is left of them once numbers are replaced by the nearest
floats. Texts and whole numbers of fifty-three bits are counted one by one. Greater whole numbers
can have the same nearest float, and then they count as one although they differ.

## Main definitions

* `Cohort.Json.rounded` — a value with the nearest float in place of a number.
* `Cohort.Json.IsPlain` — whole numbers and texts.

## Main results

* `Cohort.Json.distinctKey_eq_iff` — when two values count as one.
* `Cohort.Aggregate.length_distinct` — how many values are counted.
* `Cohort.Aggregate.reduce_countUnique_plain` — how many whole numbers and texts are counted. -/

namespace Cohort

namespace Json

variable {v w : Json}

/-! ### What is compared -/

/-- A value with the nearest float in place of a number. Numbers inside lists and objects stay. -/
def rounded : Json → Json
  | .number n => .number (.float n.toFloat n.isFinite_toFloat)
  | v => v

/-- Rounding the numbers of a value keeps its kind. -/
lemma kind_rounded (v : Json) : v.rounded.kind = v.kind := by
  cases v <;> rfl

/-- Rounding a second time changes nothing. -/
lemma rounded_rounded (v : Json) : v.rounded.rounded = v.rounded := by
  cases v <;> rfl

/-- The letter in front of the text of a value. -/
def Kind.letter : Kind → Char
  | .string => 's'
  | .number => 'n'
  | .null | .bool | .array | .object => 'j'

/-- The text of a value without the letter in front of it. -/
def keyBody : Json → String
  | .string s => s
  | .number n => keyLayout.write n.toFloat
  | v => v.compress

/-- A key starts with the letter of its kind and a colon. -/
lemma toList_distinctKey (v : Json) :
    v.distinctKey.toList = v.kind.letter :: ':' :: v.keyBody.toList := by
  cases v <;> simp [distinctKey, kind, Kind.letter, keyBody]

/-- Among values of one kind, what follows in the key tells apart what rounding tells apart.

**Proof sketch.** A text is its own key. The layout of a number identifies its float. Other values
are written as JSON, which identifies them. -/
lemma keyBody_eq_iff (h : v.kind.letter = w.kind.letter) :
    v.keyBody = w.keyBody ↔ v.rounded = w.rounded := by
  cases v with
  | string s =>
    cases w with
    | string t => simp [keyBody, rounded]
    | _ => cases h
  | number n =>
    cases w with
    | number m =>
      rw [keyBody, keyBody, keyLayout.write_inj n.isFinite_toFloat m.isFinite_toFloat]
      simp [rounded]
    | _ => cases h
  | null | bool | array | object =>
    cases w with
    | string | number => cases h
    | null | bool | array | object => exact compress_inj

/-- Two values count as one if and only if they are the same but for the rounding of numbers. -/
theorem distinctKey_eq_iff : v.distinctKey = w.distinctKey ↔ v.rounded = w.rounded := by
  rw [← String.toList_inj, toList_distinctKey, toList_distinctKey, List.cons.injEq, List.cons.injEq,
    String.toList_inj]
  constructor
  · rintro ⟨hletter, -, hbody⟩
    exact (keyBody_eq_iff hletter).1 hbody
  · intro h
    have hletter : v.kind.letter = w.kind.letter := by
      rw [← kind_rounded, h, kind_rounded]
    exact ⟨hletter, rfl, (keyBody_eq_iff hletter).2 h⟩

/-- A value has the text of the rounded one. -/
lemma distinctKey_rounded (v : Json) : v.rounded.distinctKey = v.distinctKey :=
  distinctKey_eq_iff.2 v.rounded_rounded

/-! ### Whole numbers and texts -/

/-- A whole number or a text. -/
inductive IsPlain : Json → Prop
  | integer (n : ℤ) (inRange : -0x8000000000000000 ≤ n ∧ n < 0x10000000000000000) :
      IsPlain (.number (.integer n inRange))
  | string (s : String) : IsPlain (.string s)

/-- Whole numbers and texts are told apart if whole numbers that differ have different nearest
floats.

**Proof sketch.** Texts are kept as they are, and a whole number is replaced by its nearest float,
which is no text. So only two whole numbers can fall together. -/
lemma injOn_rounded_iff {values : Set Json} (hplain : ∀ v ∈ values, v.IsPlain) :
    Set.InjOn rounded values ↔ ∀ n hn m hm, .number (.integer n hn) ∈ values →
      .number (.integer m hm) ∈ values → Float.ofInt n = Float.ofInt m → n = m := by
  constructor
  · intro hinj n hn m hm hnmem hmmem hfloat
    have hrounded : rounded (.number (.integer n hn)) = rounded (.number (.integer m hm)) := by
      simpa [rounded, Number.toFloat] using hfloat
    simpa using hinj hnmem hmmem hrounded
  · intro hfloats v hv w hw hrounded
    cases hplain v hv with
    | integer n hn =>
      cases hplain w hw with
      | integer m hm =>
        have hfloat : Float.ofInt n = Float.ofInt m := by
          simpa [rounded, Number.toFloat] using hrounded
        simpa using hfloats n hn m hm hv hw hfloat
      | string t => cases hrounded
    | string s =>
      cases hplain w hw with
      | integer m hm => cases hrounded
      | string t => exact hrounded

end Json

namespace Aggregate

/-! ### Counts -/

/-- Of elements with the same key one is left.

**Proof sketch.** Strong induction on the length. The first element stays and removes those with its
key; the others have the remaining keys. -/
lemma length_eraseDupsBy {α κ : Type} [DecidableEq κ] (key : α → κ) (l : List α) :
    (l.eraseDupsBy fun a b => key a == key b).length = (l.map key).toFinset.card := by
  induction hn : l.length using Nat.strong_induction_on generalizing l with
  | h n ih =>
    cases l with
    | nil => rfl
    | cons a l =>
      have hlt : (l.filter fun b => (key b == key a) = false).length < n := by
        rw [← hn]
        exact Nat.lt_succ_of_le (List.length_filter_le _ l)
      have hnew : key a ∉ ((l.filter fun b => (key b == key a) = false).map key).toFinset := by
        simp
      -- no key gets lost with the elements that have the first one
      have hkeys : ((a :: l).map key).toFinset =
          insert (key a) ((l.filter fun b => (key b == key a) = false).map key).toFinset := by
        ext k
        by_cases hk : k = key a
        · simp [hk]
        · simp only [List.map_cons, List.mem_toFinset, List.mem_cons, hk, List.mem_map, false_or,
            beq_eq_false_iff_ne, Finset.mem_insert, List.mem_filter, decide_eq_true_eq]
          refine exists_congr fun b => ?_
          constructor
          · rintro ⟨hb, rfl⟩
            exact ⟨⟨hb, hk⟩, rfl⟩
          · rintro ⟨⟨hb, -⟩, hkey⟩
            exact ⟨hb, hkey⟩
      rw [List.eraseDupsBy_cons, List.length_cons, ih _ hlt _ rfl, hkeys,
        Finset.card_insert_of_notMem hnew]

/-- As many values are counted as differ once numbers are rounded.

**Proof sketch.** A value has the text of the rounded one, and rounded values with the same text are
the same. -/
theorem length_distinct (vs : List Json) :
    (distinct vs).length = (vs.toFinset.image Json.rounded).card := by
  have hkeys : (keyed vs).map Prod.fst = vs.map Json.distinctKey := by
    rw [keyed, List.map_map]
    rfl
  have himage : (vs.map Json.distinctKey).toFinset =
      (vs.toFinset.image Json.rounded).image Json.distinctKey := by
    rw [Finset.image_image]
    ext key
    simp [Json.distinctKey_rounded]
  have hinj : Set.InjOn Json.distinctKey (vs.toFinset.image Json.rounded) := by
    intro v hv w hw hkey
    obtain ⟨v, -, rfl⟩ := Finset.mem_image.1 hv
    obtain ⟨w, -, rfl⟩ := Finset.mem_image.1 hw
    rwa [Json.distinctKey_rounded, Json.distinctKey_rounded, Json.distinctKey_eq_iff] at hkey
  rw [distinct, List.length_map, length_eraseDupsBy Prod.fst, hkeys, himage,
    Finset.card_image_of_injOn hinj]

/-- The number of distinct values among whole numbers and texts is the number of values that differ
once whole numbers are replaced by the nearest floats. It is at most the number of values that
differ, and it is this number if and only if no two different whole numbers have the same nearest
float. So it is this number if all whole numbers have at most fifty-three bits.

**Proof sketch.** The values are counted by their keys, which are those of the rounded values.
Counting them is counting an image, and this loses nothing exactly if rounding is injective on
them. -/
theorem reduce_countUnique_plain {property : Option String} {events : List Event}
    (grouping : Grouping) (hplain : ∀ v ∈ presentValues property events, v.IsPlain) :
    let values := (presentValues property events).toFinset
    let counted := (values.image Json.rounded).card
    reduce .countUnique property grouping events = .ofInt counted ∧
      counted ≤ values.card ∧
      (counted = values.card ↔ ∀ n hn m hm, .number (.integer n hn) ∈ values →
        .number (.integer m hm) ∈ values → Float.ofInt n = Float.ofInt m → n = m) ∧
      ((∀ n hn, .number (.integer n hn) ∈ values → n.natAbs < 2 ^ 53) →
        counted = values.card) := by
  intro values counted
  have hiff : counted = values.card ↔ ∀ n hn m hm, .number (.integer n hn) ∈ values →
      .number (.integer m hm) ∈ values → Float.ofInt n = Float.ofInt m → n = m := by
    refine Finset.card_image_iff.trans (Json.injOn_rounded_iff fun v hv => hplain v ?_)
    exact List.mem_toFinset.1 hv
  refine ⟨?_, Finset.card_image_le, hiff, fun hsmall => hiff.2 ?_⟩
  · rw [reduce, length_distinct]
  · intro n hn m hm hnmem hmmem hfloat
    exact (Json.Number.ofInt_inj (hsmall n hn hnmem) (hsmall m hm hmmem)).1 hfloat

/-- Orders with the numbers `7` and `12` and the text `7` are told apart. -/
theorem orders_counted :
    let order (v : Json) : Event :=
      ⟨"p1", "order", Index.ofList [("id", v)], ⟨0, 0, by decide, by decide⟩⟩
    let events := [order (.number (.integer 7)), order (.string "7"), order (.number (.integer 12)),
      order (.number (.integer 7))]
    (∀ v ∈ presentValues (some "id") events, v.IsPlain) ∧
      reduce .countUnique (some "id") .total events = .ofInt 3 := by
  intro order events
  have hvalues : presentValues (some "id") events =
      [.number (.integer 7), .string "7", .number (.integer 12), .number (.integer 7)] := by
    decide +kernel
  have hplain : ∀ v ∈ presentValues (some "id") events, v.IsPlain := by
    rw [hvalues]
    simp [Json.IsPlain.integer, Json.IsPlain.string]
  obtain ⟨hreduce, -, -, hsmall⟩ := reduce_countUnique_plain .total hplain
  refine ⟨hplain, ?_⟩
  rw [hreduce, hsmall ?_, hvalues]
  · rfl
  · intro n hn hmem
    rw [hvalues] at hmem
    have hn : n = 12 ∨ n = 7 := by simpa using hmem
    omega

/-- Two neighbours beyond fifty-three bits have the same nearest float: they count as one. -/
theorem neighbours_confused :
    let order (v : Json) : Event :=
      ⟨"p1", "order", Index.ofList [("id", v)], ⟨0, 0, by decide, by decide⟩⟩
    let events := [order (.number (.integer 9007199254740992)),
      order (.number (.integer 9007199254740993))]
    (∀ v ∈ presentValues (some "id") events, v.IsPlain) ∧
      (presentValues (some "id") events).toFinset.card = 2 ∧
      reduce .countUnique (some "id") .total events = .ofInt 1 := by
  intro order events
  have hvalues : presentValues (some "id") events =
      [.number (.integer 9007199254740992), .number (.integer 9007199254740993)] := by
    decide +kernel
  refine ⟨?_, ?_, ?_⟩
  · rw [hvalues]
    simp [Json.IsPlain.integer]
  · rw [hvalues]
    decide +kernel
  · decide +kernel

end Aggregate

end Cohort
