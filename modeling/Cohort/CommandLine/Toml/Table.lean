import Cohort.CommandLine.Entry
set_option autoImplicit false

/-!
# Tables of a TOML text

The tables of a TOML text are open while it is read: headers and dotted keys add to them. No key is
assigned twice and no table is opened twice.

## Main definitions

* `Cohort.CommandLine.Toml.Node` — a part of a text that is still being read.
* `Cohort.CommandLine.Toml.inTable?` — a change of the table that headers lead to.
* `Cohort.CommandLine.Toml.openTable?`, `Cohort.CommandLine.Toml.openItem?` — a table opened by a
  header.
* `Cohort.CommandLine.Toml.assign?` — a value under a dotted key.
-/

namespace Cohort.CommandLine.Toml

/-! ### Tables under construction -/

/-- How a table came to be. -/
inductive Origin where
  /-- By the header of a table inside it. -/
  | mentioned
  /-- By its own header. -/
  | opened
  /-- By a dotted key. -/
  | dotted
deriving DecidableEq, Repr

/-- A part of a text that is still being read. -/
inductive Node where
  /-- A value, which is closed. -/
  | value (e : Entry)
  /-- A table. -/
  | table (origin : Origin) (members : List (String × Node))
  /-- A list of tables, each with a header of its own. -/
  | tables (items : List (List (String × Node)))

/-- The members of a table that is still being read. -/
abbrev Members := List (String × Node)

mutual

/-- The entry of a part that was read. -/
def Node.toEntry : Node → Entry
  | .value e => e
  | .table _ members => .table (toEntries members)
  | .tables items => .list (toTables items)

/-- The entries of members. -/
def toEntries : List (String × Node) → List (String × Entry)
  | [] => []
  | (name, node) :: rest => (name, node.toEntry) :: toEntries rest

/-- The entries of tables. -/
def toTables : List (List (String × Node)) → List Entry
  | [] => []
  | members :: rest => .table (toEntries members) :: toTables rest

end

/-- Members with one changed, or added if it is not there. -/
def alter? (name : String) (change : Option Node → Option Node) : Members → Option Members
  | [] => (change none).map fun node => [(name, node)]
  | (key, node) :: rest =>
    if key = name then (change (some node)).map fun node => (key, node) :: rest
    else (alter? name change rest).map ((key, node) :: ·)

/-- A change of the members of the table that headers lead to; of a list of tables the last one is
meant. -/
def inTable? (change : Members → Option Members) : List String → Members → Option Members
  | [], members => change members
  | name :: path, members =>
    members |> alter? name fun
      | none => (inTable? change path []).map (.table .mentioned)
      | some (.table origin held) => (inTable? change path held).map (.table origin)
      | some (.tables items) => do
        let held ← inTable? change path (items.getLast?.getD [])
        return .tables (items.dropLast ++ [held])
      | some (.value _) => none

/-- Members with a table opened by its header. -/
def openTable? (name : String) : Members → Option Members :=
  alter? name fun
    | none => some (.table .opened [])
    | some (.table .mentioned held) => some (.table .opened held)
    | some _ => none

/-- Members with one more table in a list of tables. -/
def openItem? (name : String) : Members → Option Members :=
  alter? name fun
    | none => some (.tables [[]])
    | some (.tables items) => some (.tables (items ++ [[]]))
    | some _ => none

/-- Members with a value under a dotted key. Where `closed` is set they are those of a table that
headers made, which takes no values this way, though the key may lead on from there. -/
def assign? (e : Entry) (closed : Bool) : List String → Members → Option Members
  | [], _ => none
  | [name], members => members |> alter? name fun
      | none => if closed then none else some (.value e)
      | some _ => none
  | name :: path, members => members |> alter? name fun
      | none => (assign? e false path []).map (.table .dotted)
      | some (.table .opened _) => none
      | some (.table .mentioned held) => (assign? e true path held).map (.table .mentioned)
      | some (.table .dotted held) => (assign? e false path held).map (.table .dotted)
      | some (.tables items) => do
        let held ← assign? e true path (items.getLast?.getD [])
        return .tables (items.dropLast ++ [held])
      | some (.value _) => none

end Cohort.CommandLine.Toml
