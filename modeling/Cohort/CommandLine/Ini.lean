import Cohort.CommandLine.Entry
import Cohort.CommandLine.Reader
import Cohort.Text.Blank
set_option autoImplicit false

/-!
# INI

An INI text holds values under keys, which belong to the section that was opened last, and comments
on lines of their own. All values are texts. A section that is opened again starts anew.

## Main definitions

* `Cohort.CommandLine.Ini.Item` — a part of a text.
* `Cohort.CommandLine.Ini.readItems?` — the parts of a text.
* `Cohort.CommandLine.Ini.read?` — the entries of a text.
-/

namespace Cohort.CommandLine.Ini

/-! ### Texts -/

/-- The character that a one-letter escape stands for; any other stands for itself. -/
def escaped : Char → Char
  | '0' => '\x00'
  | 'a' => '\x07'
  | 'b' => '\x08'
  | 't' => '\t'
  | 'r' => '\r'
  | 'n' => '\n'
  | c => c

/-- The characters up to one that is a stop, and what follows from there on. A backslash takes
away the meaning of the next character and joins lines. The end of the text is a stop if
`atEnd` is set. -/
def readUntil? (isStop : Char → Bool) (atEnd : Bool) : List Char → Option (List Char × List Char)
  | [] => if atEnd then some ([], []) else none
  | ['\\'] => if atEnd then some (['\\'], []) else none
  | '\\' :: '\n' :: cs => readUntil? isStop atEnd cs
  | '\\' :: 'x' :: a :: b :: c :: d :: cs => do
    Reader.cons (← Reader.codePoint? [a, b, c, d]) (readUntil? isStop atEnd cs)
  | '\\' :: c :: cs =>
    if c == 'x' then none else Reader.cons (escaped c) (readUntil? isStop atEnd cs)
  | c :: cs => if isStop c then some ([], c :: cs) else Reader.cons c (readUntil? isStop atEnd cs)

/-- Whether a character ends a line. -/
def isBreak (c : Char) : Bool :=
  c == '\n' || c == '\r'

/-- The characters up to the last one that is not blank. -/
def trimRight (cs : List Char) : List Char :=
  (Text.trimLeft cs.reverse).reverse

/-- A value up to the end of its line: parts in quotes, and then characters without quotes, which
are trimmed. Each part in quotes takes up a character, so that the length of the text bounds
`fuel`. -/
def readValue? : (fuel : Nat) → (isFirst : Bool) → List Char → Option (List Char × List Char)
  | 0, _, _ => some ([], [])
  | fuel + 1, isFirst, cs =>
    match cs with
    | [] => some ([], [])
    | c :: rest =>
      if c == '"' || c == '\'' then do
        let (part, rest) ← readUntil? (· == c) false rest
        let (parts, rest) ← readValue? fuel false (rest.drop 1)
        return (part ++ parts, rest)
      else do
        let (part, rest) ← readUntil? isBreak true cs
        return (if isFirst then Text.trimBoth part else trimRight part, rest)

/-! ### Parts -/

/-- A part of a text. -/
inductive Item where
  /-- The opening of a section. -/
  | section (name : String)
  /-- A value under a key. -/
  | value (key value : String)
deriving DecidableEq, Repr

/-- The text after the blanks at its front, and whether it is the start of a line. -/
def skipBlanks (atStart : Bool) : List Char → Bool × List Char
  | [] => (atStart, [])
  | c :: cs => if Text.isBlank c then skipBlanks (c == '\n') cs else (atStart, c :: cs)

/-- A value after its key. -/
def readValueOf? (key : List Char) (cs : List Char) : Option (Item × List Char) := do
  let key := Text.trimBoth key
  if key.isEmpty then none
  let cs := cs.dropWhile fun c => Text.isBlank c && !isBreak c
  let (value, rest) ← readValue? (cs.length + 1) true cs
  return (.value (String.ofList key) (String.ofList value), rest)

/-- A part at the front of a text. -/
def readItem? (cs : List Char) : Option (Item × List Char) :=
  match cs with
  | '[' :: cs => do
    let (name, rest) ← readUntil? (· == ']') false cs
    return (.section (String.ofList (Text.trimBoth name)), rest.drop 1)
  | cs => do
    let (key, rest) ← readUntil? (fun c => c == '=' || c == ':') false cs
    readValueOf? key (rest.drop 1)

/-- The parts of a text. Each part takes up a character, so that the length of the text bounds
`fuel`. -/
def readItems? : (fuel : Nat) → (atStart : Bool) → List Char → Option (List Item)
  | 0, _, _ => some []
  | fuel + 1, atStart, cs =>
    match skipBlanks atStart cs with
    | (_, []) => some []
    | (atStart, c :: cs) =>
      if c == ';' || c == '#' then
        if atStart then readItems? fuel true ((cs.dropWhile (· != '\n')).drop 1) else none
      else do
        let (item, rest) ← readItem? (c :: cs)
        return item :: (← readItems? fuel false rest)

/-! ### Entries -/

/-- The values before the first section, and the sections. -/
def sections : List Item → List (String × Entry) × List (String × Entry)
  | [] => ([], [])
  | .value key value :: items =>
    let (values, rest) := sections items
    ((key, .text value) :: values, rest)
  | .section name :: items =>
    let (values, rest) := sections items
    ([], (name, .table (Entry.distinct values)) :: rest)

/-- The entries of a text. -/
def read? (text : String) : Option (List (String × Entry)) := do
  let cs := text.toList
  let (values, rest) := sections (← readItems? (cs.length + 1) true cs)
  return Entry.distinct (values ++ rest)

end Cohort.CommandLine.Ini
