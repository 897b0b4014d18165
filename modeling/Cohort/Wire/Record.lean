import Cohort.Instant.Reading
import Cohort.Json.Document
import Cohort.Uuid
set_option autoImplicit false

/-!
# Records in JSON

Definitions and data arrive as JSON records: objects with named members, or lists with the members
in their order. Members with other names are skipped, whatever they hold; a member that occurs twice
makes the record unreadable.

## Main definitions

* `Cohort.Wire.Reader` — how a part of a document is read.
* `Cohort.Wire.Record` — the members of a record.
* `Cohort.Wire.Record.required`, `Cohort.Wire.Record.optional`, `Cohort.Wire.Record.orElse` — the
  value of a member.
-/

namespace Cohort.Wire

open Json (Document)

/-- How a part of a document is read. -/
abbrev Reader (α : Type) := Document → Option α

/-! ### Values -/

/-- A text. -/
def text : Reader String
  | .string s => some s
  | _ => none

/-- A truth value. -/
def bool : Reader Bool
  | .bool b => some b
  | _ => none

/-- A whole number that fits 64 bits with a sign. -/
def int64 : Reader Int
  | .number n => n.toInt64?
  | _ => none

/-- A whole number that fits 64 bits without a sign. -/
def nat64 : Reader Nat
  | .number n => n.toNat64?
  | _ => none

/-- Any number as a float. -/
def float : Reader Float
  | .number n => some n.toFloat
  | _ => none

/-- Any value. -/
def json : Reader Json :=
  Document.value?

/-- A list. -/
def list {α : Type} (item : Reader α) : Reader (List α)
  | .array items => items.mapM item
  | _ => none

/-- Values under names; of several with one name the last counts. -/
def fields : Reader (Index String Json)
  | .object members => (Document.members? members).map .ofList
  | _ => none

/-- A timestamp. -/
def timestamp : Reader Instant
  | .string s => Instant.ofTimestamp? s
  | _ => none

/-- An identifier. -/
def uuid : Reader Uuid
  | .string s => Uuid.ofText? s
  | _ => none

/-- One of several words: the word itself, or an object with nothing under the word. -/
def word {α : Type} (ofName? : String → Option α) : Reader α
  | .string s => ofName? s
  | .object [(name, .null)] => ofName? name
  | _ => none

/-! ### Records -/

/-- The members of a record by their names, as far as they are there. -/
abbrev Record := List (String × Document)

namespace Record

/-- The members with certain names, none of which may occur twice. -/
def collect? (names : List String) (canonical : String → String) :
    List (String × Document) → Option Record
  | [] => some []
  | (key, d) :: rest => do
    let found ← collect? names canonical rest
    let name := canonical key
    if name ∈ names then
      if (found.lookup name).isSome then none else return (name, d) :: found
    else return found

/-- The record with certain names, which may have other spellings. -/
def readSpelled? (names : List String) (canonical : String → String) : Document → Option Record
  | .object members => collect? names canonical members
  | .array items => if items.length ≤ names.length then some (names.zip items) else none
  | _ => none

/-- The record with certain names. -/
def read? (names : List String) (d : Document) : Option Record :=
  readSpelled? names id d

/-- The value of a member that has to be there. -/
def required {α : Type} (r : Record) (name : String) (read : Reader α) : Option α :=
  (r.lookup name).bind read

/-- The value of a member that stands for a default when it is not there. -/
def orElse {α : Type} (r : Record) (name : String) (default : α) (read : Reader α) : Option α :=
  match r.lookup name with
  | some d => read d
  | none => some default

/-- The value of a member that may be missing or null. -/
def optional {α : Type} (r : Record) (name : String) (read : Reader α) : Option (Option α) :=
  match r.lookup name with
  | none | some .null => some none
  | some d => (read d).map some

end Record

/-! ### Tagged records -/

/-- A tagged record: a word that says what the record holds, and the rest of it. -/
structure Tagged where
  /-- The word. -/
  tag : String
  /-- The record without the word. -/
  rest : Document

/-- Whether every part of a document names a value. -/
def isReadable (d : Document) : Bool :=
  d.value?.isSome

/-- The word of a tagged record: a text, or its place among the words where they are numbered. -/
def tag (words : List String) (numbered : Bool) : Reader String
  | .string s => if s ∈ words then some s else none
  | .number n => if numbered then n.toNat64?.bind (words[·]?) else none
  | _ => none

/-- A tagged record: an object in which the word is called `type`, or a list that starts with the
word. All of it has to be readable. -/
def tagged (words : List String) (numbered : Bool) : Reader Tagged
  | .object members => do
    guard (members.all (isReadable ·.2))
    let r ← Record.collect? ["type"] id members
    return ⟨← r.required "type" (tag words numbered), .object (members.filter (·.1 ≠ "type"))⟩
  | .array (word :: rest) => do
    guard (rest.all isReadable)
    return ⟨← tag words numbered word, .array rest⟩
  | _ => none

end Cohort.Wire
