import Cohort.CommandLine.Numeral
import Cohort.Json.Coercion
import Cohort.Text.Lowercase
set_option autoImplicit false

/-!
# Entries of settings

Whatever settings are written in, they are read as a tree of entries first. Entries are read
leniently: a number may be written as a text, a truth value or a fraction.

## Main definitions

* `Cohort.CommandLine.Entry` — a tree of entries.
* `Cohort.CommandLine.Entry.distinct` — entries under names that differ.
* `Cohort.CommandLine.Entry.toNat?`, `Cohort.CommandLine.Entry.toText?` — an entry read as a number
  or a text.
* `Cohort.CommandLine.Entry.ofJson` — the entry of a JSON value.
-/

namespace Cohort.CommandLine

/-- A tree of entries. -/
inductive Entry where
  /-- Nothing. -/
  | nothing
  /-- A truth value. -/
  | bool (b : Bool)
  /-- A whole number. -/
  | integer (n : Int)
  /-- A fraction; it need not be finite. -/
  | float (x : Float)
  /-- A text. -/
  | text (s : String)
  /-- A list. -/
  | list (items : List Entry)
  /-- Entries under names. -/
  | table (entries : List (String × Entry))

namespace Entry

/-! ### Tables -/

/-- Entries with one changed, or added if it is not there. -/
def update (name : String) (change : Option Entry → Entry) :
    List (String × Entry) → List (String × Entry)
  | [] => [(name, change none)]
  | (key, held) :: rest =>
    if key = name then (key, change (some held)) :: rest else (key, held) :: update name change rest

/-- Entries under their names; of several under one name the last counts. -/
def distinct (es : List (String × Entry)) : List (String × Entry) :=
  es.foldl (fun held (name, e) => update name (fun _ => e) held) []

/-! ### Conversions -/

/-- A float as a natural number: rounded, and zero or the greatest where it lies beyond them. -/
def naturalOfFloat (x : Float) : Nat :=
  if x.isNaN || Decimal.isNegative x then 0
  else if x.isFinite then min ((Decimal.Binary.ofFloat x).roundedMagnitude 0 .up) Numeral.maxNat64
  else Numeral.maxNat64

/-- An entry as a natural number. -/
def toNat? : Entry → Option Nat
  | .integer n => if 0 ≤ n then some n.toNat else none
  | .float x => some (naturalOfFloat x)
  | .bool b => some b.toNat
  | .text s =>
    let word := Text.lowercase s
    if word ∈ ["true", "on", "yes"] then some 1
    else if word ∈ ["false", "off", "no"] then some 0
    else Numeral.natural? s
  | _ => none

/-- An entry as a text. -/
def toText? : Entry → Option String
  | .text s => some s
  | .bool b => some (if b then "true" else "false")
  | .integer n => some (toString n)
  | .float x => some (Json.keyLayout.write x)
  | _ => none

/-- The entry of a JSON value. Whole numbers beyond 64 bits with a sign count as fractions. -/
def ofNumber (n : Json.Number) : Entry :=
  match n.toInt64? with
  | some i => .integer i
  | none => .float n.toFloat

mutual

/-- The entry of a JSON value. -/
def ofJson : Json → Entry
  | .null => .nothing
  | .bool b => .bool b
  | .number n => ofNumber n
  | .string s => .text s
  | .array items => .list (ofItems items)
  | .object fields => .table (ofFields fields)

/-- The entries of JSON values. -/
def ofItems : List Json → List Entry
  | [] => []
  | v :: vs => ofJson v :: ofItems vs

/-- The entries of members. -/
def ofFields : List (String × Json) → List (String × Entry)
  | [] => []
  | (name, v) :: rest => (name, ofJson v) :: ofFields rest

end

end Entry

end Cohort.CommandLine
