import Cohort.CommandLine.Toml.Scalar
import Cohort.CommandLine.Toml.Table
set_option autoImplicit false

/-!
# Reading TOML

A TOML text is a list of lines: headers, which open a table, and assignments to keys of the table
that was opened last. A header or a key may be dotted. A table that is written as a value is closed.

## Main definitions

* `Cohort.CommandLine.Toml.readValue?` — a value at the front of a text.
* `Cohort.CommandLine.Toml.read?` — the entries of a text.
-/

namespace Cohort.CommandLine.Toml

/-! ### Values -/

/-- The depth of the deepest nested value and of the longest dotted key. -/
def maxDepth : Nat := 79

/-- The text after an equals sign and the spaces around it. -/
def skipEquals? (cs : List Char) : Option (List Char) :=
  match skipSpace cs with
  | '=' :: cs => some (skipSpace cs)
  | _ => none

mutual

/-- A value at the front of a text. Each call may use one unit of `fuel` less than its caller;
`levels` more lists and tables may be nested. -/
def readValue? : (fuel : Nat) → (levels : Nat) → List Char → Option (Entry × List Char)
  | 0, _, _ => none
  | fuel + 1, levels, cs =>
    match levels, cs with
    | 0, '[' :: _ => none
    | levels + 1, '[' :: rest => do
      let (items, rest) ← readItems? fuel levels (skipLines false rest)
      return (.list items, rest)
    | 0, '\x7b' :: _ => none
    | levels + 1, '\x7b' :: rest =>
      match skipSpace rest with
      | '\x7d' :: rest => some (.table [], rest)
      | rest => do
        let (members, rest) ← readMembers? fuel levels [] rest
        return (.table (toEntries members), rest)
    | _, cs =>
      match readString? cs with
      | some (text, rest) => some (.text (String.ofList text), rest)
      | none => readWord? cs

/-- The items of a list up to its closing bracket. -/
def readItems? : (fuel : Nat) → (levels : Nat) → List Char → Option (List Entry × List Char)
  | 0, _, _ => none
  | fuel + 1, levels, cs =>
    match cs with
    | ']' :: rest => some ([], rest)
    | cs => do
      let (item, rest) ← readValue? fuel levels cs
      match skipLines false rest with
      | ']' :: rest => return ([item], rest)
      | ',' :: rest =>
        let (items, rest) ← readItems? fuel levels (skipLines false rest)
        return (item :: items, rest)
      | _ => none

/-- The members of a table that is written as a value, after those that were read before, up to its
closing brace. -/
def readMembers? : (fuel : Nat) → (levels : Nat) → Members → List Char →
    Option (Members × List Char)
  | 0, _, _, _ => none
  | fuel + 1, levels, held, cs => do
    let (key, rest) ← readKey? maxDepth cs
    let (e, rest) ← readValue? fuel levels (← skipEquals? rest)
    let held ← assign? e false key held
    match skipSpace rest with
    | '\x7d' :: rest => return (held, rest)
    | ',' :: rest => readMembers? fuel levels held (skipSpace rest)
    | _ => none

end

/-! ### Texts -/

/-- The text after the closing brackets of a header, which ends its line. -/
def endHeader? (brackets : List Char) (cs : List Char) : Option (List Char) :=
  let cs := skipSpace cs
  if brackets.isPrefixOf cs then endLine? (cs.drop brackets.length) else none

/-- The members of a text, of which `held` were read before and the table at `path` was opened
last. Each call may use one unit of `fuel` less than its caller. -/
def readLines? : (fuel : Nat) → (path : List String) → (held : Members) → List Char →
    Option Members
  | 0, _, _, _ => none
  | fuel + 1, path, held, cs =>
    match skipLines false cs with
    | [] => some held
    | '[' :: '[' :: rest => do
      let (key, rest) ← readKey? maxDepth (skipSpace rest)
      let held ← inTable? (openItem? (key.getLast?.getD "")) key.dropLast held
      readLines? fuel key held (← endHeader? [']', ']'] rest)
    | '[' :: rest => do
      let (key, rest) ← readKey? maxDepth (skipSpace rest)
      let held ← inTable? (openTable? (key.getLast?.getD "")) key.dropLast held
      readLines? fuel key held (← endHeader? [']'] rest)
    | rest => do
      let (key, rest) ← readKey? maxDepth rest
      let (e, rest) ← readValue? fuel maxDepth (← skipEquals? rest)
      let held ← inTable? (assign? e false key) path held
      readLines? fuel path held (← endLine? rest)

/-- The entries of a text. Of two calls of the readers one inside the other at least one consumes a
character, so the length of the text bounds their nesting. -/
def read? (text : String) : Option (List (String × Entry)) :=
  let cs := text.toList
  (readLines? (2 * cs.length + 1) [] [] cs).map toEntries

end Cohort.CommandLine.Toml
