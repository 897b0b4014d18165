import Cohort.CommandLine.Entry
set_option autoImplicit false

/-!
# Overlays of settings

The entries of a layer stand under keys, and a key is a path: names, which lead into tables, and
places, which lead into lists. What stands in the way of a path gives way to the table or the list
that the path needs. Names are compared in small letters.

## Main definitions

* `Cohort.CommandLine.Step` — a step on a path.
* `Cohort.CommandLine.pathOf` — the steps of a key.
* `Cohort.CommandLine.Entry.insertAt` — an entry under a path, over what was there.
* `Cohort.CommandLine.addLayer` — a layer over a tree of entries.
-/

namespace Cohort.CommandLine

/-! ### Paths -/

/-- A step on a path. -/
inductive Step where
  /-- To what a table holds under a name. -/
  | name (s : String)
  /-- To what a list holds at a place; below zero, places are counted from the end. -/
  | place (i : Int)
deriving DecidableEq, Repr

/-- Whether a character may stand in a name on a path. -/
def isPathChar (c : Char) : Bool :=
  c.isAlphanum || c == '_' || c == '-' || c == ' '

/-- A name at the front of a text. -/
def readName? (cs : List Char) : Option (Step × List Char) :=
  let name := cs.takeWhile isPathChar
  if name.isEmpty then none else some (.name (String.ofList name), cs.drop name.length)

/-- A place at the front of a text, after its opening bracket, up to the closing one. -/
def readPlace? (cs : List Char) : Option (Step × List Char) :=
  let isSpace := fun c => c == ' ' || c == '\t'
  let digits := (cs.dropWhile isSpace).takeWhile fun c => c == '-' || c.isDigit
  match ((cs.dropWhile isSpace).drop digits.length).dropWhile isSpace with
  | ']' :: rest => (Numeral.integer? digits).map fun i => (.place i, rest)
  | _ => none

/-- The steps after the first one. Each takes up a character, so that the length of the text bounds
`fuel`. -/
def readSteps? : (fuel : Nat) → List Char → Option (List Step)
  | _, [] => some []
  | 0, _ => none
  | fuel + 1, c :: cs => do
    let (step, rest) ←
      if c == '.' then readName? cs else if c == '[' then readPlace? cs else none
    return step :: (← readSteps? fuel rest)

/-- The steps of a text that is a path: a name, after which names follow a point and places stand
in brackets. -/
def readPath? (cs : List Char) : Option (List Step) := do
  let (step, rest) ← readName? cs
  return step :: (← readSteps? rest.length rest)

/-- The steps of a key. One that is no path is a name. -/
def pathOf (key : String) : List Step :=
  (readPath? key.toList).getD [.name key]

namespace Entry

/-! ### Tables and lists -/

/-- The entries under names. Anything but a table has none. -/
def entries : Entry → List (String × Entry)
  | .table es => es
  | _ => []

/-- The items of a list. Anything else has none. -/
def items : Entry → List Entry
  | .list es => es
  | _ => []

/-- An entry as a table with one name changed, or added if it is not there. -/
def updateName (name : String) (change : Option Entry → Entry) (held : Entry) : Entry :=
  .table (update (Text.lowercase name) change held.entries)

/-- How many places are added to a list at most. Only the first few of a list are looked at. -/
def maxPlaces : Nat := 0x10000

/-- An entry as a list with one place changed. Where there are too few places, nothing stands in
those that are added. -/
def updatePlace (i : Int) (change : Entry → Entry) (held : Entry) : Entry :=
  let blanks := fun size => List.replicate (min maxPlaces (size - held.items.length)) nothing
  match i with
  | .ofNat n => .list ((held.items ++ blanks (n + 1)).modify n change)
  | .negSucc n =>
    let items := blanks (n + 1) ++ held.items
    .list (items.modify (items.length - (n + 1)) change)

/-! ### Overlays -/

mutual

/-- An entry over another: tables are merged, anything else takes the place of what was there. -/
def overlay : Entry → Option Entry → Entry
  | .table es, held => overlayAll es (held.getD (.table []))
  | e, _ => e

/-- Entries under names over an entry. -/
def overlayAll : List (String × Entry) → Entry → Entry
  | [], held => held
  | (name, e) :: es, held => overlayAll es (updateName name (overlay e) held)

end

/-- An entry under a path, over what was there. At a place, the entry takes the place of what was
there even if both are tables. -/
def insertAt : List Step → Entry → Option Entry → Entry
  | [], e, held => overlay e held
  | .name s :: path, e, held => updateName s (insertAt path e) (held.getD nothing)
  | [.place i], e, held => updatePlace i (fun _ => e) (held.getD nothing)
  | .place i :: path, e, held =>
    updatePlace i (fun item => insertAt path e (some item)) (held.getD nothing)

end Entry

/-- A layer over a tree of entries. The names of the layer are keys. -/
def addLayer (layer : List (String × Entry)) (held : Entry) : Entry :=
  layer.foldl (fun held (key, e) => Entry.insertAt (pathOf key) e (some held)) held

end Cohort.CommandLine
