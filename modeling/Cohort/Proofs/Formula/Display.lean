import Cohort.Proofs.Formula.Modes
import Cohort.Proofs.Json.Exact
import Cohort.Proofs.Json.Number
import Cohort.Proofs.Json.Printer
set_option relaxedAutoImplicit false
set_option autoImplicit false

/-!
# Attributes in joined texts

`CAT` shows an attribute by way of the nearest float: a number becomes a float, the float becomes a
number again, and that number is written. The rest of the library writes the attribute itself. The
two texts are the same for everything but numbers. Whole numbers are shown alike up to the bound
below which floats become whole numbers again; from there on `CAT` writes the digits of the float.
Floats without a fraction are shown alike up to the bound below which they are written without a
point, and above the other bound, where both texts are those of the float.

## Main definitions

* `Cohort.Json.Number.IsMisshown` — the numbers whose two texts differ.

## Main results

* `Cohort.Json.toText_ofNumber` — the text of a float that became a number.
* `Cohort.Json.Number.toText_toFloat_iff` — when a number and its nearest float have the same text.
* `Cohort.Formula.Value.display_ofJson_iff` — when a joined text shows a value as its text.
* `Cohort.Formula.Expr.evaluate_cat_iff` — when `CAT` shows an attribute as its text. -/

namespace Cohort.Json

/-! ### Numbers by way of floats -/

/-- The text of a float that became a number: a whole number below nine quadrillions has no
point.

**Proof sketch.** Within the bound the whole number fits in 64 bits and becomes an integer, which is
written without a point. Otherwise the float is kept, and it is written as a float. -/
lemma toText_ofNumber {x : Float} (hx : x.isFinite = true) :
    (ofNumber x).toText =
      if Decimal.isWhole x = true ∧ (Decimal.truncate x).natAbs < 9000000000000000 then
        toString (Decimal.truncate x)
      else Number.floatLayout.write x := by
  have hcondition : (x.isFinite && Decimal.isWhole x &&
      decide ((Decimal.truncate x).natAbs < 9000000000000000)) = true ↔
        Decimal.isWhole x = true ∧ (Decimal.truncate x).natAbs < 9000000000000000 := by
    simp [hx]
  rw [ofNumber]
  by_cases h : Decimal.isWhole x = true ∧ (Decimal.truncate x).natAbs < 9000000000000000
  · have hrange : -0x8000000000000000 ≤ Decimal.truncate x ∧
        Decimal.truncate x < 0x10000000000000000 := by omega
    rw [if_pos (hcondition.2 h), if_pos h, ofInt, Number.ofInt?, dif_pos hrange]
    rfl
  · rw [if_neg (mt hcondition.1 h), if_neg h, ofFloat, Number.ofFloat?, dif_pos hx]
    change textOfNumber (.float x hx) = _
    rw [textOfNumber, if_neg]
    · rfl
    · intro hsmall
      simp only [Bool.and_eq_true, decide_eq_true_eq] at hsmall
      exact h ⟨hsmall.1, by omega⟩

namespace Number

/-- The numbers that `CAT` shows otherwise than the rest of the library: whole numbers from nine
quadrillions on, and floats without a fraction between one quadrillion and nine. -/
def IsMisshown : Number → Prop
  | .integer n _ => 9000000000000000 ≤ n.natAbs
  | .float x _ => Decimal.isWhole x = true ∧ 1000000000000000 ≤ (Decimal.truncate x).natAbs ∧
      (Decimal.truncate x).natAbs < 9000000000000000

/-- A number has the text of its nearest float unless it is one of those.

**Proof sketch.** A whole number below nine quadrillions has fewer than fifty-four bits, so it is
the whole part of its nearest float. From there on the text is that of a float, or of a number below
the bound. -/
theorem toText_toFloat_iff (n : Number) :
    (ofNumber n.toFloat).toText = textOfNumber n ↔ ¬ n.IsMisshown := by
  rw [toText_ofNumber n.isFinite_toFloat]
  cases n with
  | integer n hn =>
    change _ = toString n ↔ ¬ 9000000000000000 ≤ n.natAbs
    rw [toFloat, not_le]
    constructor
    · intro h
      split at h
      case isTrue hwhole =>
        rw [← toString_inj h]
        exact hwhole.2
      case isFalse => exact absurd h.symm (toString_ne_write (isFinite_toFloat (.integer n hn)))
    · intro hsmall
      obtain ⟨hwhole, htruncate⟩ := truncate_ofInt (n := n) (by omega)
      rw [if_pos ⟨hwhole, by rwa [htruncate]⟩, htruncate]
  | float x hx =>
    have hsmall : (Decimal.isWhole x &&
        decide ((Decimal.truncate x).natAbs < 1000000000000000)) = true ↔
          Decimal.isWhole x = true ∧ (Decimal.truncate x).natAbs < 1000000000000000 := by simp
    rw [toFloat, textOfNumber, IsMisshown]
    by_cases hpoint : Decimal.isWhole x = true ∧ (Decimal.truncate x).natAbs < 1000000000000000
    · rw [if_pos ⟨hpoint.1, by omega⟩, if_pos (hsmall.2 hpoint)]
      exact iff_of_true rfl fun h => absurd hpoint.2 (not_lt.2 h.2.1)
    · rw [if_neg (mt hsmall.1 hpoint), write]
      split
      case isTrue hwhole =>
        have hlarge := not_lt.1 fun hlt => hpoint ⟨hwhole.1, hlt⟩
        exact iff_of_false (toString_ne_write hx) fun h => h ⟨hwhole.1, hlarge, hwhole.2⟩
      case isFalse hwhole => exact iff_of_true rfl fun h => hwhole ⟨h.1, h.2.2⟩

end Number

end Cohort.Json

namespace Cohort.Formula

/-! ### Attributes -/

/-- A joined text shows a value as its text unless the value is a number that it misshows. -/
theorem Value.display_ofJson_iff (v : Json) :
    (Value.ofJson v).display = v.toText ↔ ∀ n, v = .number n → ¬ n.IsMisshown := by
  cases v with
  | number n =>
    simp only [Json.number.injEq, forall_eq']
    exact n.toText_toFloat_iff
  | null | bool _ | string _ | array _ | object _ => exact iff_of_true rfl (by simp)

namespace Expr

variable {σ : Type}

/-- `CAT` shows an attribute as constraints, columns and sorting do, by its text, if and only if the
attribute is no number that a joined text misshows: whole numbers below nine quadrillions and all
values that are no numbers are shown alike. -/
theorem evaluate_cat_iff (scope : String → StateM σ Json) (name : String) (s : σ) :
    (Expr.cat (.ident name) []).evaluate scope s =
        (.text (scope name s).1.toText, (scope name s).2) ↔
      ∀ n, (scope name s).1 = .number n → ¬ n.IsMisshown := by
  have hvalue : (Expr.cat (.ident name) []).evaluate scope s =
      (.text ((Value.ofJson (scope name s).1).display ++ ""), (scope name s).2) := by
    rw [evaluate, evaluateIn, evaluateIn, joinIn]
    rfl
  rw [hvalue, String.append_empty, Prod.mk.injEq, Value.text.injEq, ← Value.display_ofJson_iff]
  exact and_iff_left rfl

end Expr

/-- `CAT(x)` shows the whole number 9007199254740993 as the float below it, and the float 1e15
without its point; columns show both by their own texts. -/
theorem numbers_misshown :
    parse "CAT(x)" = .ok (.cat (.ident "x") []) ∧
    ((Expr.cat (.ident "x") []).evaluate (listed [("x", .ofInt 9007199254740993)]) ()).1 =
      .text "9007199254740992.0" ∧
    (Json.ofInt 9007199254740993).toText = "9007199254740993" ∧
    ((Expr.cat (.ident "x") []).evaluate (listed [("x", .ofFloat 1e15)]) ()).1 =
      .text "1000000000000000" ∧
    (Json.ofFloat 1e15).toText = "1000000000000000.0" := by
  have hcat : Derives false .primary (.ident "CAT" :: .openParen :: ([.ident "x"] ++ [.closeParen]))
      (.cat (.ident "x") []) :=
    .call_one (f := .cat) (by decide +kernel) (derives_name "x") .cat
  have hparse : parse "CAT(x)" = .ok (.cat (.ident "x") []) :=
    parse_eq_ok.mpr ⟨_, by decide +kernel, .additive (.term (.unary (.primary hcat)))⟩
  refine ⟨hparse, ?_, ?_, ?_, ?_⟩
  all_goals decide +kernel

end Cohort.Formula
