import Cohort.Decimal.Layout
set_option autoImplicit false

/-!
# JSON values

Traits and event payloads are loosely typed, and JSON is their type. Numbers are of two kinds:
whole numbers of the two 64-bit ranges are exact, all others are finite floats. The members of an
object that was read are listed by their names in code point order, each name once; an object that
is only written may list its members in an order of its own.

## Main definitions

* `Cohort.Json` — a JSON value.
* `Cohort.Json.Number` — a whole number or a finite float.
* `Cohort.Json.Fields` — the members of an object.
-/

namespace Cohort

namespace Json

/-- A JSON number. -/
inductive Number where
  /-- A whole number that fits 64 bits, with or without a sign. -/
  | integer (value : Int)
      (inRange : -0x8000000000000000 ≤ value ∧ value < 0x10000000000000000 := by decide)
  /-- A finite float. -/
  | float (value : Float) (isFinite : value.isFinite = true := by decide)
deriving DecidableEq

namespace Number

/-- A whole number, if it fits 64 bits. -/
def ofInt? (n : Int) : Option Number :=
  if h : -0x8000000000000000 ≤ n ∧ n < 0x10000000000000000 then some (.integer n h) else none

/-- A float, if it is finite. -/
def ofFloat? (x : Float) : Option Number :=
  if h : x.isFinite = true then some (.float x h) else none

/-- The float nearest to a number. -/
def toFloat : Number → Float
  | .integer n _ => Float.ofInt n
  | .float x _ => x

/-- The number if it is a whole number that fits 64 bits with a sign. -/
def toInt64? : Number → Option Int
  | .integer n _ => if n < 0x8000000000000000 then some n else none
  | .float _ _ => none

/-- The number if it is a whole number that fits 64 bits without a sign. -/
def toNat64? : Number → Option Nat
  | .integer n _ => if 0 ≤ n then some n.toNat else none
  | .float _ _ => none

/-- Floats in JSON: positional from `0.00001` up to sixteen digits before the point, and always
told apart from whole numbers by a point or an exponent. -/
def floatLayout : Decimal.Layout :=
  ⟨.toEven, some (-5, 15), true⟩

/-- The text of a number. -/
def write : Number → String
  | .integer n _ => toString n
  | .float x _ => floatLayout.write x

end Number

end Json

/-- A JSON value. -/
inductive Json where
  /-- The value `null`. -/
  | null
  /-- A truth value. -/
  | bool (b : Bool)
  /-- A number. -/
  | number (n : Json.Number)
  /-- A text. -/
  | string (s : String)
  /-- A list of values. -/
  | array (items : List Json)
  /-- Values under names. -/
  | object (fields : List (String × Json))

namespace Json

/-- A value is null unless it is given. -/
instance : Inhabited Json := ⟨.null⟩

mutual

/-- Whether two values are the same, member by member. -/
def decEq : (a b : Json) → Decidable (a = b)
  | .null, b => match b with
    | .null => isTrue rfl
    | .bool _ | .number _ | .string _ | .array _ | .object _ => isFalse nofun
  | .bool a, b => match b with
    | .bool b => decidable_of_iff (a = b) ⟨congrArg _, fun h => Json.bool.inj h⟩
    | .null | .number _ | .string _ | .array _ | .object _ => isFalse nofun
  | .number a, b => match b with
    | .number b => decidable_of_iff (a = b) ⟨congrArg _, fun h => Json.number.inj h⟩
    | .null | .bool _ | .string _ | .array _ | .object _ => isFalse nofun
  | .string a, b => match b with
    | .string b => decidable_of_iff (a = b) ⟨congrArg _, fun h => Json.string.inj h⟩
    | .null | .bool _ | .number _ | .array _ | .object _ => isFalse nofun
  | .array a, b => match b with
    | .array b => match decEqItems a b with
      | isTrue h => isTrue (congrArg _ h)
      | isFalse h => isFalse fun e => h (Json.array.inj e)
    | .null | .bool _ | .number _ | .string _ | .object _ => isFalse nofun
  | .object a, b => match b with
    | .object b => match decEqFields a b with
      | isTrue h => isTrue (congrArg _ h)
      | isFalse h => isFalse fun e => h (Json.object.inj e)
    | .null | .bool _ | .number _ | .string _ | .array _ => isFalse nofun

/-- Whether two lists of values are the same. -/
def decEqItems : (a b : List Json) → Decidable (a = b)
  | [], [] => isTrue rfl
  | [], _ :: _ => isFalse nofun
  | _ :: _, [] => isFalse nofun
  | a :: as, b :: bs => match decEq a b, decEqItems as bs with
    | isTrue h, isTrue hs => isTrue (h ▸ hs ▸ rfl)
    | isFalse h, _ => isFalse fun e => h (List.cons.inj e).1
    | _, isFalse h => isFalse fun e => h (List.cons.inj e).2

/-- Whether two lists of members are the same. -/
def decEqFields : (a b : List (String × Json)) → Decidable (a = b)
  | [], [] => isTrue rfl
  | [], _ :: _ => isFalse nofun
  | _ :: _, [] => isFalse nofun
  | (k, a) :: as, (l, b) :: bs =>
    match (inferInstance : Decidable (k = l)), decEq a b, decEqFields as bs with
    | isTrue hk, isTrue h, isTrue hs => isTrue (hk ▸ h ▸ hs ▸ rfl)
    | isFalse h, _, _ => isFalse fun e => h (Prod.mk.inj (List.cons.inj e).1).1
    | _, isFalse h, _ => isFalse fun e => h (Prod.mk.inj (List.cons.inj e).1).2
    | _, _, isFalse h => isFalse fun e => h (List.cons.inj e).2

end

/-- Whether two values are the same is decided from constructor to constructor. -/
instance : DecidableEq Json := decEq

/-- The members of an object. -/
abbrev Fields := List (String × Json)

namespace Fields

/-- The member with a name. -/
def get? (fields : Fields) (name : String) : Option Json :=
  fields.lookup name

/-- The members with one more, in the place of any of the same name. -/
def insert (name : String) (value : Json) : Fields → Fields
  | [] => [(name, value)]
  | (key, held) :: rest =>
    if name < key then (name, value) :: (key, held) :: rest
    else if name = key then (name, value) :: rest
    else (key, held) :: insert name value rest

/-- The members in the order of their names; of several with one name the last counts. -/
def ofList (members : List (String × Json)) : Fields :=
  members.foldl (fun fields member => fields.insert member.1 member.2) []

end Fields

/-- An object from members in any order. -/
def ofMembers (members : List (String × Json)) : Json :=
  .object (Fields.ofList members)

/-- A whole number as a JSON value; one that does not fit 64 bits is null. -/
def ofInt (n : Int) : Json :=
  match Number.ofInt? n with
  | some n => .number n
  | none => .null

/-- A float as a JSON value; one that is not finite is null. -/
def ofFloat (x : Float) : Json :=
  match Number.ofFloat? x with
  | some n => .number n
  | none => .null

/-- The value of an option, null if there is none. -/
def ofOption {α : Type} (write : α → Json) : Option α → Json
  | some a => write a
  | none => .null

/-- The members of an object. -/
def fields? : Json → Option Fields
  | .object fields => some fields
  | _ => none

end Json

end Cohort
