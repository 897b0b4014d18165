import Cohort.Decimal.Reading
import Cohort.Json.Document
set_option autoImplicit false

/-!
# Numbers in texts

Whole numbers in texts are bounded: they fit 64 bits. Floats are not: one that is too large is
infinite, and words name those that are not finite.

## Main definitions

* `Cohort.CommandLine.Numeral.natural?`, `Cohort.CommandLine.Numeral.integer?` — the whole number
  that takes up a text.
* `Cohort.CommandLine.Numeral.float?` — the float that takes up a text.
-/

namespace Cohort.CommandLine.Numeral

/-! ### Bounds -/

/-- The greatest number that 64 bits hold. -/
def maxNat64 : Nat := 0xFFFFFFFFFFFFFFFF

/-- Whether a number fits 64 bits with a sign. -/
def isInt64 (n : Int) : Bool :=
  -0x8000000000000000 ≤ n && n < 0x8000000000000000

/-! ### Whole numbers -/

/-- The number that digits of a base name, of which there is at least one. -/
def ofDigits? (base : Nat) (digits : List Char) : Option Nat :=
  if digits.isEmpty then none
  else digits.foldlM (fun n c => do
    let d ← Json.Document.hexDigit? c
    if d < base then some (base * n + d) else none) 0

/-- A natural number in a text: digits, which may follow a plus sign. -/
def natural? (s : String) : Option Nat :=
  let digits := match s.toList with
    | '+' :: cs => cs
    | cs => cs
  (ofDigits? 10 digits).filter (· ≤ maxNat64)

/-- A whole number in digits of a base, with a sign or without. -/
def inBase? (base : Nat) (cs : List Char) : Option Int := do
  let (negative, digits) := Decimal.splitSign cs
  let n : Int ← (ofDigits? base digits).map Int.ofNat
  let n := if negative then -n else n
  if isInt64 n then some n else none

/-- A whole number in decimal digits, with a sign or without. -/
def integer? (cs : List Char) : Option Int :=
  inBase? 10 cs

/-! ### Floats -/

/-- The float that a word for one that is not finite names. -/
def wordFloat? (cs : List Char) : Option Float :=
  match (String.ofList cs).map Char.toLower with
  | "inf" | "infinity" => some (1.0 / 0.0)
  | "nan" => some (0.0 / 0.0)
  | _ => none

/-- A float in a text. -/
def float? (cs : List Char) : Option Float :=
  match Decimal.readLiteral? cs with
  | some literal => some literal.toFloat
  | none =>
    let (negative, cs) := Decimal.splitSign cs
    (wordFloat? cs).map fun x => if negative then -x else x

end Cohort.CommandLine.Numeral
