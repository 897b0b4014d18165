import Cohort.Index
set_option autoImplicit false

/-!
# Identifiers of segments

An identifier is a 128-bit number. It is written as 32 small hexadecimal digits in five groups.
Readers also take it without hyphens, in braces or as a uniform resource name, in any case.

## Main definitions

* `Cohort.Uuid` — an identifier.
* `Cohort.Uuid.write`, `Cohort.Uuid.ofText?` — its text.
-/

namespace Cohort

/-- A 128-bit identifier. -/
structure Uuid where
  /-- The identifier as a number. -/
  value : Nat
  /-- It has 128 bits. -/
  value_lt : value < 0x100000000000000000000000000000000 := by decide
deriving DecidableEq

namespace Uuid

/-- The number one has few enough bits. -/
theorem one_lt : 1 < 0x100000000000000000000000000000000 := by decide

/-- The number two has few enough bits. -/
theorem two_lt : 2 < 0x100000000000000000000000000000000 := by decide

/-- Identifiers are ordered as numbers. -/
instance : LT Uuid := ⟨fun a b => a.value < b.value⟩

/-- The order of identifiers can be decided. -/
instance : DecidableLT Uuid := fun a b => inferInstanceAs (Decidable (a.value < b.value))

/-- The order of identifiers is strict and linear. -/
instance : Key Uuid where
  lt_irrefl k := Nat.lt_irrefl k.value
  lt_trans := Nat.lt_trans
  lt_of_not_lt {j k} h hne := by
    obtain ⟨j, _⟩ := j
    obtain ⟨k, _⟩ := k
    have hne : j ≠ k := fun heq => hne (by simp [heq])
    have h : ¬ j < k := h
    show k < j
    omega

/-- The hexadecimal digit at a place, counted from the end. -/
def digit (id : Uuid) (place : Nat) : Char :=
  Nat.digitChar (id.value / Nat.pow 16 place % 16)

/-- The digits of an identifier. -/
def digits (id : Uuid) : List Char :=
  (List.range 32).map fun i => id.digit (31 - i)

/-- Thirty-two digits with hyphens between groups of 8, 4, 4, 4 and 12. -/
def hyphenate (ds : List Char) : List Char :=
  ds.take 8 ++ '-' :: ((ds.drop 8).take 4 ++ '-' :: ((ds.drop 12).take 4 ++ '-' ::
    ((ds.drop 16).take 4 ++ '-' :: ds.drop 20)))

/-- The text of an identifier. -/
def write (id : Uuid) : String :=
  String.ofList (hyphenate id.digits)

/-- The number that a hexadecimal digit stands for. -/
def valueOfDigit? (c : Char) : Option Nat :=
  if c.isDigit then some (c.toNat - '0'.toNat)
  else if 'a' ≤ c && c ≤ 'f' then some (c.toNat - 'a'.toNat + 10)
  else if 'A' ≤ c && c ≤ 'F' then some (c.toNat - 'A'.toNat + 10)
  else none

/-- The identifier with these digits. -/
def ofDigits? (ds : List Char) : Option Uuid := do
  guard (ds.length = 32)
  let n := (← ds.mapM valueOfDigit?).foldl (fun n d => 16 * n + d) 0
  if h : n < 0x100000000000000000000000000000000 then some ⟨n, h⟩ else none

/-- The digits between the hyphens of the five groups. -/
def ungroup? (cs : List Char) : Option (List Char) :=
  let ds := cs.filter (· ≠ '-')
  if cs = hyphenate ds && ds.length = 32 then some ds else none

/-- The identifier in five groups. -/
def ofGroups? (cs : List Char) : Option Uuid :=
  (ungroup? cs).bind ofDigits?

/-- The part of a text after one that it starts with. -/
def dropFront? : List Char → List Char → Option (List Char)
  | [], cs => some cs
  | _ :: _, [] => none
  | p :: ps, c :: cs => if p = c then dropFront? ps cs else none

/-- The identifier inside braces. -/
def ofBraces? : List Char → Option Uuid
  | '\x7b' :: cs => if cs.getLast? = some '\x7d' then ofGroups? cs.dropLast else none
  | _ => none

/-- The identifier that a text names. -/
def ofText? (s : String) : Option Uuid :=
  let cs := s.toList
  (ofDigits? cs).or <| (ofGroups? cs).or <| (ofBraces? cs).or <|
    (dropFront? "urn:uuid:".toList cs).bind ofGroups?

/-- An identifier from random bits: of the 128, six say that the others are random. -/
def ofRandom (bits : Nat) : Uuid :=
  let high := bits / 0x100000000000000000000 % 0x1000000000000
  let middle := bits / 0x10000000000000000 % 0x1000
  let low := bits % 0x4000000000000000
  ⟨high * 0x100000000000000000000 + (0x4000 + middle) * 0x10000000000000000 +
    (0x8000000000000000 + low), by omega⟩

end Uuid

end Cohort
