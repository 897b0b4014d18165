import Cohort.CommandLine.Entry
set_option autoImplicit false

/-!
# Places in a YAML text

Indentation gives a YAML text its structure, so a reader has to know the column it has come to. It
also keeps the nodes that were named, which may be repeated later.

## Main definitions

* `Cohort.CommandLine.Yaml.Cursor` — a place in a text.
* `Cohort.CommandLine.Yaml.Cursor.nextLine?` — the first thing on a later line.
* `Cohort.CommandLine.Yaml.Cursor.lineBreaks?` — line breaks inside a scalar.
-/

namespace Cohort.CommandLine.Yaml

/-! ### Characters -/

/-- Whether a character separates parts of a line. -/
def isSpace (c : Char) : Bool :=
  c == ' ' || c == '\t'

/-- Whether a character has a meaning of its own between brackets and braces. -/
def isFlowMark (c : Char) : Bool :=
  c == ',' || c == '[' || c == ']' || c == '\x7b' || c == '\x7d'

/-- Whether a text begins with a space or a line break, or is empty. -/
def endsWord : List Char → Bool
  | [] => true
  | c :: _ => isSpace c || c == '\n'

/-- A text in which each line ends in one and the same character. -/
def unifyBreaks : List Char → List Char
  | '\r' :: '\n' :: cs => '\n' :: unifyBreaks cs
  | c :: cs => (if c == '\r' then '\n' else c) :: unifyBreaks cs
  | [] => []

/-- A place in a text. -/
structure Cursor where
  /-- How many characters of the line stand before it. -/
  column : Nat
  /-- The text from there on. -/
  rest : List Char
  /-- The nodes that were named before. -/
  anchors : List (String × Entry)

namespace Cursor

/-! ### Steps -/

/-- A place further on in the line. -/
def advance (c : Cursor) (size : Nat) : Cursor :=
  { c with column := c.column + size, rest := c.rest.drop size }

/-- The place after the spaces. -/
def skipSpaces (c : Cursor) : Cursor :=
  c.advance (c.rest.takeWhile isSpace).length

/-- The start of a line. -/
def atLine (c : Cursor) (rest : List Char) : Cursor :=
  { c with column := 0, rest }

/-- Whether a mark stands at a place, and stands alone. -/
def isAt (c : Cursor) (mark : String) : Bool :=
  mark.toList.isPrefixOf c.rest && endsWord (c.rest.drop mark.length)

/-- Whether a document begins or ends at a place. -/
def isBoundary (c : Cursor) : Bool :=
  c.column == 0 && (c.isAt "---" || c.isAt "...")

/-- Whether the text or the document ends at a place. -/
def isOver (c : Cursor) : Bool :=
  c.rest.isEmpty || c.isBoundary

/-- Whether the rest of the line holds nothing but a comment. -/
def endsLine (c : Cursor) : Bool :=
  match c.skipSpaces.rest with
  | [] => true
  | d :: _ => d == '\n' || (d == '#' && (c.column == 0 || c.skipSpaces.column != c.column))

/-! ### Lines -/

/-- The first thing on this line, if the place is its start, or on a later one. The rest of this
line holds nothing but a comment, and no tab indents the thing. Each line takes up a character, so
that the length of the text bounds `fuel`. -/
def nextLineWithin? : (fuel : Nat) → Cursor → Option Cursor
  | 0, _ => none
  | fuel + 1, c =>
    if c.endsLine then
      match c.rest.dropWhile (· != '\n') with
      | [] => some (c.atLine [])
      | _ :: rest => nextLineWithin? fuel (c.atLine rest)
    else if c.column == 0 && (c.rest.takeWhile isSpace).all (· == ' ') then some c.skipSpaces
    else none

/-- The first thing on this line, if the place is its start, or on a later one. -/
def nextLine? (c : Cursor) : Option Cursor :=
  nextLineWithin? (c.rest.length + 1) c

/-- The next thing between brackets or braces that are indented by `indent`: it stands no less far
to the right, and no document ends before it. -/
def nextThing? (indent : Int) : (fuel : Nat) → Cursor → Option Cursor
  | 0, _ => none
  | fuel + 1, c =>
    if c.endsLine then
      match c.rest.dropWhile (· != '\n') with
      | [] => none
      | _ :: rest => nextThing? indent fuel (c.atLine rest)
    else if c.column == 0 && (c.isBoundary || (c.skipSpaces.column : Int) < indent) then none
    else some c.skipSpaces

/-- The place of the next thing in a scalar and how many lines end before it, of which there is at
least one. The thing is indented by more than `indent`, and no document ends before it. -/
def lineBreaks? (indent : Int) : (fuel : Nat) → Cursor → Option (Nat × Cursor)
  | 0, _ => none
  | fuel + 1, c =>
    match c.skipSpaces.rest with
    | '\n' :: rest => do
      let next := c.atLine rest
      let margin := (rest.takeWhile (· == ' ')).length
      match next.skipSpaces.rest with
      | [] => none
      | '\n' :: _ => (lineBreaks? indent fuel next).map fun (breaks, c) => (breaks + 1, c)
      | _ => if indent < margin && !next.isBoundary then some (1, next.skipSpaces) else none
    | _ => none

/-- What line breaks in a scalar stand for: one for a space, others for one less. -/
def folded (breaks : Nat) : List Char :=
  if breaks = 1 then [' '] else List.replicate (breaks - 1) '\n'

end Cursor

end Cohort.CommandLine.Yaml
