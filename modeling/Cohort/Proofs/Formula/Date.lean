import Cohort.Proofs.Formula.Modes
import Cohort.Proofs.Instant.Text
set_option relaxedAutoImplicit false
set_option autoImplicit false

/-!
# Instants that formulas yield

An instant that a formula yields is kept as a text, cut to whole seconds. Constraints and the
formulas that depend on it read this text. They find the instant again, cut to whole seconds, if its
year has four digits. Other years are written with a sign, which neither of them reads: to them the
attribute is no instant at all.

## Main definitions

* `Cohort.Formula.Value.IsRegular` — a value that is a regular instant, or none.

## Main results

* `Cohort.Formula.Expr.isRegular_evaluateIn` — formulas yield regular instants only.
* `Cohort.Formula.Expr.evaluate_date_read` — what is read of an instant that a formula yields.
-/

namespace Cohort.Formula

/-! ### Regular values -/

/-- A value that is a regular instant, or no instant at all. -/
def Value.IsRegular : Value → Prop
  | .date t => t.Regular
  | _ => True

/-- A text that is read as an instant gives a regular one. -/
lemma isRegular_coerce_text (mode : Mode) (s : String) : (coerce mode (.text s)).IsRegular := by
  cases mode with
  | plain => trivial
  | math =>
    simp only [coerce]
    split <;> trivial
  | date =>
    simp only [coerce]
    split
    case h_1 t ht => exact Instant.regular_of_ofText? ht
    case h_2 => trivial

/-- So does the value of an attribute. -/
lemma isRegular_coerce (mode : Mode) (v : Json) : (coerce mode (.ofJson v)).IsRegular := by
  cases v with
  | null | bool _ | number _ => cases mode <;> trivial
  | string _ | array _ | object _ => exact isRegular_coerce_text mode _

/-- A regular instant is moved to a regular one. -/
lemma isRegular_shift {t : Instant} (h : t.Regular) (seconds : Float) :
    (shift t seconds).IsRegular := by
  simp only [shift]
  split
  case isFalse => trivial
  case isTrue =>
    split
    case h_1 u hu => exact Instant.regular_of_addMillis? h hu
    case h_2 => trivial

/-- Arithmetic yields an instant only by moving one. -/
lemma isRegular_calculate (op : ArithmeticOp) {left right : Value} (hleft : left.IsRegular)
    (hright : right.IsRegular) : (calculate op left right).IsRegular := by
  unfold calculate
  split
  case h_5 => exact isRegular_shift hleft _
  case h_6 => exact isRegular_shift hright _
  case h_7 => exact isRegular_shift hleft _
  case h_4 | h_13 | h_14 => split <;> trivial
  all_goals trivial

/-- What a calculation with dates makes of a regular value is regular. -/
lemma isRegular_dateResult {v : Value} (h : v.IsRegular) : (dateResult v).IsRegular := by
  unfold dateResult
  split
  case h_1 => exact h
  case h_2 => split <;> trivial
  case h_3 => trivial

/-- What a calculation with numbers makes of a value is regular. -/
lemma isRegular_mathResult (v : Value) : (mathResult v).IsRegular := by
  unfold mathResult
  split
  case h_1 => split <;> trivial
  case h_2 => trivial

/-- Opposites are regular. -/
lemma isRegular_opposite (v : Value) : (opposite v).IsRegular := by
  unfold opposite
  split <;> trivial

/-- Answers to comparisons are regular. -/
lemma isRegular_compareValues (op : ComparisonOp) (left right : Value) :
    (compareValues op left right).IsRegular := by
  unfold compareValues
  split
  case isTrue => trivial
  case isFalse =>
    split
    case h_1 => trivial
    case h_2 => cases op <;> trivial

/-! ### Regular results -/

namespace Expr

variable {σ : Type} (scope : String → StateM σ Json)

/-- Formulas yield regular instants only.

**Proof sketch.** Induction on the formula. An instant is read from a text, which gives a regular
one, or moved, which keeps it regular; a choice and a call hand it on. -/
theorem isRegular_evaluateIn (mode : Mode) (e : Expr) (s : σ) :
    (e.evaluateIn scope mode s).1.IsRegular := by
  cases e with
  | ident name => exact isRegular_coerce mode _
  | text text => exact isRegular_coerce_text mode text
  | number _ | duration _ | bool _ | null => trivial
  | cat _ _ => trivial
  | choose condition accepted rejected =>
    have hbranch : ∀ (held : Bool) (s : σ),
        ((if held then accepted.evaluateIn scope mode else rejected.evaluateIn scope mode :
          StateM σ Value) s).1.IsRegular := by
      intro held s
      cases held with
      | true => exact isRegular_evaluateIn mode accepted s
      | false => exact isRegular_evaluateIn mode rejected s
    exact hbranch _ _
  | math body => exact isRegular_mathResult _
  | date body => exact isRegular_dateResult (isRegular_evaluateIn .date body s)
  | arithmetic op left right =>
    exact isRegular_calculate op (isRegular_evaluateIn mode left s)
      (isRegular_evaluateIn mode right _)
  | comparison op left right => exact isRegular_compareValues op _ _
  | negate body => exact isRegular_opposite _

/-- What is read of an instant that a formula yields. Its text is read, by constraints and by a
formula that calculates with instants, as the instant cut to whole seconds if its year has four
digits, and otherwise as no instant.

**Proof sketch.** The instant is regular, so its text names it up to the fraction; a text with a
signed year has neither the form of RFC 3339 nor that of a plain date. -/
theorem evaluate_date_read (e : Expr) {s : σ} {t : Instant}
    (h : (e.evaluate scope s).1 = .date t) :
    (Value.date t).toJson.toInstant? = (if t.InFourDigits then some t.wholeSeconds else none) ∧
      ∀ {τ : Type} (dependent : String → StateM τ Json) (name : String) (u : τ),
        (dependent name u).1 = (Value.date t).toJson →
          ((Expr.ident name).evaluateIn dependent .date u).1 =
              (if t.InFourDigits then .date t.wholeSeconds else .null) ∧
            ((Expr.date (.ident name)).evaluate dependent u).1 =
              (if t.InFourDigits then .date t.wholeSeconds else .null) := by
  have hregular : t.Regular := by
    have hvalue := isRegular_evaluateIn scope .plain e s
    change (e.evaluate scope s).1.IsRegular at hvalue
    rw [h] at hvalue
    exact hvalue
  have htext := Instant.ofText?_writeSeconds hregular
  refine ⟨htext, fun {τ} dependent name u hread => ?_⟩
  have hident : ((Expr.ident name).evaluateIn dependent .date u).1 =
      if t.InFourDigits then .date t.wholeSeconds else .null := by
    change coerce .date (.ofJson (dependent name u).1) = _
    rw [hread]
    simp only [Value.toJson, Value.ofJson, coerce, htext]
    by_cases hyear : t.InFourDigits
    · rw [if_pos hyear, if_pos hyear]
    · rw [if_neg hyear, if_neg hyear]
  refine ⟨hident, ?_⟩
  change dateResult ((Expr.ident name).evaluateIn dependent .date u).1 = _
  rw [hident]
  split <;> rfl

end Expr

/-! ### The day after a date -/

/-- The day after an attribute. -/
def nextDay (name : String) : Expr :=
  .date (.arithmetic .add (.ident name) (.duration 86400.0))

/-- The last second of 2016, which was a leap second, and a quarter of it. -/
def leapSecond : Instant :=
  ⟨1483228799, 1250000000, by decide, by decide⟩

/-- A leap second is read as a leap second, without the fraction. -/
theorem leapSecond_read :
    ((Expr.date (.text "2016-12-31T23:59:60.250Z")).evaluate (listed []) ()).1 = .date leapSecond ∧
      (Value.date leapSecond).toJson.toInstant? = some leapSecond.wholeSeconds ∧
      ((Expr.date (.ident "last")).evaluate
        (listed [("last", (Value.date leapSecond).toJson)]) ()).1 =
          .date leapSecond.wholeSeconds := by
  have hvalue : ((Expr.date (.text "2016-12-31T23:59:60.250Z")).evaluate (listed []) ()).1 =
      .date leapSecond := by decide +kernel
  have hyear : leapSecond.InFourDigits := by decide
  have hread := Expr.evaluate_date_read (listed []) _ hvalue
  rw [if_pos hyear, if_pos hyear] at hread
  refine ⟨hvalue, hread.1, ?_⟩
  exact (hread.2 (listed [("last", (Value.date leapSecond).toJson)]) "last" () rfl).2

/-- The start of the year 10000. -/
def tenThousand : Instant :=
  ⟨253402300800, 0, by decide, Instant.zero_lt_nanos⟩

/-- The day after the last one of the year 9999 is an instant, but neither constraints nor other
formulas read it. -/
theorem tenThousand_unread :
    ((nextDay "signup").evaluate (listed [("signup", .string "9999-12-31")]) ()).1 =
        .date tenThousand ∧
      (Value.date tenThousand).toJson = .string "+10000-01-01T00:00:00Z" ∧
      (Value.date tenThousand).toJson.toInstant? = none ∧
      ((Expr.date (.ident "renewal")).evaluate
        (listed [("renewal", (Value.date tenThousand).toJson)]) ()).1 = .null := by
  decide +kernel

end Cohort.Formula
