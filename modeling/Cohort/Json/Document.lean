import Cohort.Json.NumberText
set_option autoImplicit false

/-!
# JSON documents

A document is JSON text after reading: its members are in written order and may share a name, and a
part that is well-formed but names no value (a number too large for a float, half of a surrogate
pair, nesting beyond the limit) is kept as a hole. A hole does no harm where it is skipped, which
is why a record can be read from a document whose other members name no value.

## Main definitions

* `Cohort.Json.Document` — JSON text after reading.
* `Cohort.Json.Document.read?` — the document of a text.
* `Cohort.Json.Document.value?` — the value that a document names.
* `Cohort.Json.toDocument` — the document of a value.
-/

namespace Cohort.Json

/-- JSON text after reading. -/
inductive Document where
  /-- A well-formed part that names no value. -/
  | hole
  /-- The value `null`. -/
  | null
  /-- A truth value. -/
  | bool (b : Bool)
  /-- A number. -/
  | number (n : Number)
  /-- A text. -/
  | string (s : String)
  /-- A list of documents. -/
  | array (items : List Document)
  /-- Members as they are written. -/
  | object (members : List (String × Document))

/-- A document is null unless it is given. -/
instance : Inhabited Document := ⟨.null⟩

namespace Document

mutual

/-- The value that a document names; of several members with one name the last counts. -/
def value? : Document → Option Json
  | .hole => none
  | .null => some .null
  | .bool b => some (.bool b)
  | .number n => some (.number n)
  | .string s => some (.string s)
  | .array items => (items? items).map .array
  | .object members => (members? members).map ofMembers

/-- The values that documents name. -/
def items? : List Document → Option (List Json)
  | [] => some []
  | d :: ds => do
    let v ← value? d
    let vs ← items? ds
    return v :: vs

/-- The members that documents name. -/
def members? : List (String × Document) → Option (List (String × Json))
  | [] => some []
  | (name, d) :: ds => do
    let v ← value? d
    let vs ← members? ds
    return (name, v) :: vs

end

/-! ### Strings -/

/-- A part of a string: a character, or one 16-bit unit written as an escape. -/
inductive Piece where
  /-- A character that stands for itself or has an escape of its own. -/
  | char (c : Char)
  /-- A unit written with four hexadecimal digits. -/
  | unit (n : Nat)

/-- The characters of a string. The halves of a surrogate pair stand side by side; a lone half
makes the string name no text. -/
def joinPieces? : List Piece → Option (List Char)
  | [] => some []
  | .char c :: ps => (joinPieces? ps).map (c :: ·)
  | .unit n :: ps =>
    if n < 0xD800 || 0xDFFF < n then (joinPieces? ps).map (Char.ofNat n :: ·)
    else if 0xDC00 ≤ n then none
    else match ps with
      | .unit m :: ps =>
        if 0xDC00 ≤ m && m ≤ 0xDFFF then
          (joinPieces? ps).map (Char.ofNat (0x10000 + (n - 0xD800) * 0x400 + (m - 0xDC00)) :: ·)
        else none
      | _ => none

/-- The number that a hexadecimal digit stands for. -/
def hexDigit? (c : Char) : Option Nat :=
  if c.isDigit then some (c.toNat - '0'.toNat)
  else if 'a' ≤ c && c ≤ 'f' then some (c.toNat - 'a'.toNat + 10)
  else if 'A' ≤ c && c ≤ 'F' then some (c.toNat - 'A'.toNat + 10)
  else none

/-- The character that a one-letter escape stands for. -/
def simpleEscape? : Char → Option Char
  | '"' => some '"'
  | '\\' => some '\\'
  | '/' => some '/'
  | 'b' => some '\x08'
  | 'f' => some '\x0c'
  | 'n' => some '\n'
  | 'r' => some '\r'
  | 't' => some '\t'
  | _ => none

/-- The pieces of a string after its opening quote, with what follows the closing one. -/
def readPieces? : List Char → Option (List Piece × List Char)
  | [] => none
  | '"' :: cs => some ([], cs)
  | '\\' :: 'u' :: a :: b :: c :: d :: cs => do
    let n := 4096 * (← hexDigit? a) + 256 * (← hexDigit? b) + 16 * (← hexDigit? c) + (← hexDigit? d)
    let (ps, rest) ← readPieces? cs
    return (.unit n :: ps, rest)
  | '\\' :: c :: cs => do
    let c ← simpleEscape? c
    let (ps, rest) ← readPieces? cs
    return (.char c :: ps, rest)
  | c :: cs =>
    if c.toNat < 0x20 then none
    else do
      let (ps, rest) ← readPieces? cs
      return (.char c :: ps, rest)

/-! ### Documents -/

/-- Whether a character may stand between the parts of a document. -/
def isSpace (c : Char) : Bool :=
  c == ' ' || c == '\n' || c == '\t' || c == '\r'

/-- A text from its first character on that is not a space. -/
def skipSpace (cs : List Char) : List Char :=
  cs.dropWhile isSpace

/-- The document of a container, or a hole where no more nesting is allowed. -/
def within (levels : Nat) (d : Document) : Document :=
  if levels = 0 then .hole else d

/-- An object from members whose names may be holes. -/
def ofNamed (members : List (Option String × Document)) : Document :=
  match members.mapM fun (name, d) => name.map (·, d) with
  | some members => .object members
  | none => .hole

mutual

/-- The document at the front of a text, with what follows it. Each call may use one unit of
`fuel` less than its caller; `levels` more containers may be nested. -/
def readAt? : (fuel : Nat) → (levels : Nat) → List Char → Option (Document × List Char)
  | 0, _, _ => none
  | fuel + 1, levels, cs =>
    match skipSpace cs with
    | 'n' :: 'u' :: 'l' :: 'l' :: rest => some (.null, rest)
    | 't' :: 'r' :: 'u' :: 'e' :: rest => some (.bool true, rest)
    | 'f' :: 'a' :: 'l' :: 's' :: 'e' :: rest => some (.bool false, rest)
    | '"' :: rest => do
      let (pieces, rest) ← readPieces? rest
      match joinPieces? pieces with
      | some text => return (.string (String.ofList text), rest)
      | none => return (.hole, rest)
    | '[' :: rest =>
      match skipSpace rest with
      | ']' :: rest => some (within levels (.array []), rest)
      | rest => do
        let (items, rest) ← readItems? fuel (levels - 1) rest
        return (within levels (.array items), rest)
    | '\x7b' :: rest =>
      match skipSpace rest with
      | '\x7d' :: rest => some (within levels (.object []), rest)
      | rest => do
        let (members, rest) ← readMembers? fuel (levels - 1) rest
        return (within levels (ofNamed members), rest)
    | cs => do
      let (text, rest) ← readNumber? cs
      match text.number? with
      | some n => return (.number n, rest)
      | none => return (.hole, rest)

/-- The items of a list up to its closing bracket. -/
def readItems? : (fuel : Nat) → (levels : Nat) → List Char → Option (List Document × List Char)
  | 0, _, _ => none
  | fuel + 1, levels, cs => do
    let (item, rest) ← readAt? fuel levels cs
    match skipSpace rest with
    | ']' :: rest => return ([item], rest)
    | ',' :: rest =>
      let (items, rest) ← readItems? fuel levels rest
      return (item :: items, rest)
    | _ => none

/-- The members of an object up to its closing brace. -/
def readMembers? : (fuel : Nat) → (levels : Nat) → List Char →
    Option (List (Option String × Document) × List Char)
  | 0, _, _ => none
  | fuel + 1, levels, cs =>
    match skipSpace cs with
    | '"' :: rest => do
      let (pieces, rest) ← readPieces? rest
      let name := (joinPieces? pieces).map String.ofList
      match skipSpace rest with
      | ':' :: rest =>
        let (value, rest) ← readAt? fuel levels rest
        match skipSpace rest with
        | '\x7d' :: rest => return ([(name, value)], rest)
        | ',' :: rest =>
          let (members, rest) ← readMembers? fuel levels rest
          return ((name, value) :: members, rest)
        | _ => none
      | _ => none
    | _ => none

end

/-- The document of a text in which no more than `levels` containers are nested; deeper ones are
holes. Every call of the readers but the last consumes a character, so the length of the text
bounds their nesting. -/
def read? (levels : Nat) (text : String) : Option Document := do
  let cs := text.toList
  let (d, rest) ← readAt? (2 * cs.length + 1) levels cs
  guard (skipSpace rest).isEmpty
  return d

end Document

mutual

/-- The document of a value. -/
def toDocument : Json → Document
  | .null => .null
  | .bool b => .bool b
  | .number n => .number n
  | .string s => .string s
  | .array items => .array (toDocuments items)
  | .object fields => .object (toMembers fields)

/-- The documents of values. -/
def toDocuments : List Json → List Document
  | [] => []
  | v :: vs => toDocument v :: toDocuments vs

/-- The documents of members. -/
def toMembers : List (String × Json) → List (String × Document)
  | [] => []
  | (name, v) :: vs => (name, toDocument v) :: toMembers vs

end

/-- The value of a JSON text. -/
def parse? (levels : Nat) (text : String) : Option Json :=
  (Document.read? levels text).bind Document.value?

end Cohort.Json
