import Cohort.CommandLine.Yaml.Scalar
set_option autoImplicit false

/-!
# Reading YAML

A node is a scalar, a mapping, a sequence or the repetition of a node that was named before. Blocks
are given by indentation: the entries of a mapping or a sequence begin in one column. Between
brackets and braces indentation matters little.

## Main definitions

* `Cohort.CommandLine.Yaml.readNode?` — a node given by indentation.
* `Cohort.CommandLine.Yaml.readFlowNode?` — a node between brackets or braces.
* `Cohort.CommandLine.Yaml.read?` — the entries of a text.
-/

namespace Cohort.CommandLine.Yaml

/-! ### Properties -/

/-- What may stand in front of a node. -/
structure Properties where
  /-- The tag: what follows two exclamation marks, or nothing for any other tag. -/
  tag : Option String := none
  /-- The name of the node. -/
  anchor : Option String := none

/-- The name of a node at the front of a text. -/
def anchorName (cs : List Char) : List Char :=
  cs.takeWhile fun c => !isSpace c && c != '\n' && !isFlowMark c

/-- A tag at the front of a text: its meaning and how many characters it takes up. -/
def tagAt (cs : List Char) : String × Nat :=
  match cs with
  | '!' :: '<' :: rest => ("", (rest.takeWhile (· != '>')).length + 3)
  | _ =>
    let tag := anchorName cs
    match tag with
    | '!' :: '!' :: name => (String.ofList name, tag.length)
    | _ => ("", tag.length)

/-- Whether a text begins with a space, a line break or, between brackets and braces, a mark. -/
def endsProperty (flow : Bool) (cs : List Char) : Bool :=
  endsWord cs || (flow && cs.head?.any isFlowMark)

/-- One more property, with the place after it. -/
def readProperty? (flow : Bool) (held : Properties) (c : Cursor) : Option (Properties × Cursor) :=
  match c.rest with
  | '&' :: rest =>
    let name := anchorName rest
    let c := c.advance (name.length + 1)
    if held.anchor.isSome || name.isEmpty || !endsProperty flow c.rest then none
    else some ({ held with anchor := some (String.ofList name) }, c)
  | '!' :: _ =>
    let (tag, size) := tagAt c.rest
    let c := c.advance size
    if held.tag.isSome || !endsProperty flow c.rest then none
    else some ({ held with tag := some tag }, c)
  | _ => none

/-- Whether a property stands at a place. -/
def isProperty (c : Cursor) : Bool :=
  c.rest.head? == some '&' || c.rest.head? == some '!'

/-- A node under its name. -/
def named (p : Properties) (e : Entry) (c : Cursor) : Entry × Cursor :=
  match p.anchor with
  | some name => (e, { c with anchors := (name, e) :: c.anchors })
  | none => (e, c)

/-- The node that is repeated at a place. -/
def readAlias? (c : Cursor) : Option (Entry × Cursor) := do
  let name := anchorName (c.rest.drop 1)
  let e ← c.anchors.lookup (String.ofList name)
  some (e, c.advance (name.length + 1))

/-- A scalar in quotes after its opening quote, as the entry of a node. -/
def readQuotedNode? (oneLine : Bool) (indent : Int) (c : Cursor) : Option (Entry × Cursor) := do
  let quote ← c.rest.head?
  let (cs, c) ← readQuoted? quote oneLine indent (c.rest.length + 1) (c.advance 1)
  some (.text (String.ofList cs), c)

/-- An entry as the name of a member. -/
def memberName? : Entry → Option String
  | .nothing => none
  | e => e.toText?

/-- A mapping of members whose names differ. -/
def mapping? (members : List (String × Entry)) : Option Entry :=
  if (members.map Prod.fst).Nodup then some (.table members) else none

/-! ### Keys -/

/-- A scalar on one line, or a repeated node, as a key. Each property takes up a character, so
that the length of the text bounds `fuel`. -/
def readKeyNode? : (fuel : Nat) → Properties → Cursor → Option (Entry × Cursor)
  | 0, _, _ => none
  | fuel + 1, p, c =>
    if isProperty c then do
      let (p, c) ← readProperty? false p c
      readKeyNode? fuel p c.skipSpaces
    else
      match c.rest with
      | '*' :: _ => readAlias? c
      | '"' :: _ => (readQuotedNode? true 0 c).map fun (e, c) => named p e c
      | '\'' :: _ => (readQuotedNode? true 0 c).map fun (e, c) => named p e c
      | rest =>
        if startsPlain false rest then do
          let line := plainLine false rest
          let e ← resolve? p.tag (String.ofList line)
          some (named p e (c.advance line.length))
        else none

/-- A key and the place after its colon. -/
def readKey? (c : Cursor) : Option (Entry × Cursor) := do
  let (e, c) ← readKeyNode? 3 {} c
  let c := c.skipSpaces
  if c.isAt ":" then some (e, c.advance 1) else none

/-! ### Between brackets and braces -/

/-- The colon between a key and its value: it stands alone or, after a key that is no plain scalar,
in front of anything. -/
def skipColon? (isPlain : Bool) (c : Cursor) : Option Cursor :=
  match c.rest with
  | ':' :: rest => if !isPlain || endsProperty true rest then some (c.advance 1) else none
  | _ => none

/-- Whether a part ends at a place, so that a node that could stand there is empty. -/
def endsPart (c : Cursor) : Bool :=
  c.rest.head?.any fun d => d == ',' || d == ']' || d == '\x7d'

mutual

/-- A node between brackets or braces, whether it is a plain scalar, and the next thing after it.
Each call may use one unit of `fuel` less than its caller. -/
def readFlowNode? : (fuel : Nat) → (indent : Int) → Properties → Cursor →
    Option (Entry × Bool × Cursor)
  | 0, _, _, _ => none
  | fuel + 1, indent, p, c => do
    if isProperty c then
      let (p, c) ← readProperty? true p c
      readFlowNode? fuel indent p (← c.nextThing? indent (c.rest.length + 1))
    else
      let (e, isPlain, c) ←
        match c.rest with
        | '*' :: _ => (readAlias? c).map fun (e, c) => (e, true, c)
        | '"' :: _ => (readQuotedNode? false indent c).map fun (e, c) => (e, false, c)
        | '\'' :: _ => (readQuotedNode? false indent c).map fun (e, c) => (e, false, c)
        | '[' :: _ => (readFlowItems? fuel indent (c.advance 1)).map fun (es, c) =>
          (.list es, false, c)
        | '\x7b' :: _ => do
          let (es, c) ← readFlowMembers? fuel indent (c.advance 1)
          some (← mapping? es, false, c)
        | rest =>
          if startsPlain true rest then do
            let (cs, c) ← readPlain? true indent c
            let e ← resolve? p.tag (String.ofList cs)
            some (e, true, c)
          else if p.tag.isSome || p.anchor.isSome then
            (resolve? p.tag "").map fun e => (e, true, c)
          else none
      let (e, c) := named p e c
      some (e, isPlain, ← c.nextThing? indent (c.rest.length + 1))

/-- The value after a colon, which may be empty, and the next thing after it. -/
def readFlowValue? : (fuel : Nat) → (indent : Int) → Cursor → Option (Entry × Cursor)
  | 0, _, _ => none
  | fuel + 1, indent, c => do
    let c ← c.nextThing? indent (c.rest.length + 1)
    if endsPart c then some (.nothing, c)
    else
      let (e, _, c) ← readFlowNode? fuel indent {} c
      some (e, c)

/-- A part of a sequence or a mapping: a node, or a key with its value. A question mark before a key
changes nothing. -/
def readFlowPart? : (fuel : Nat) → (indent : Int) → Cursor →
    Option (Entry × Option Entry × Cursor)
  | 0, _, _ => none
  | fuel + 1, indent, c => do
    let marked := c.isAt "?"
    let c := if marked then c.advance 1 else c
    let c ← c.nextThing? indent (c.rest.length + 1)
    let (key, isPlain, c) ← readFlowNode? fuel indent {} c
    match skipColon? isPlain c with
    | some c =>
      let (e, c) ← readFlowValue? fuel indent c
      some (key, some e, c)
    | none => some (key, if marked then some .nothing else none, c)

/-- The items of a sequence up to its closing bracket. A key with its value is a mapping. -/
def readFlowItems? : (fuel : Nat) → (indent : Int) → Cursor → Option (List Entry × Cursor)
  | 0, _, _ => none
  | fuel + 1, indent, c => do
    let c ← c.nextThing? indent (c.rest.length + 1)
    if c.rest.head? == some ']' then some ([], c.advance 1)
    else
      let (key, value, c) ← readFlowPart? fuel indent c
      let e ← match value with
        | none => some key
        | some e => (memberName? key).map fun name => .table [(name, e)]
      match c.rest with
      | ']' :: _ => some ([e], c.advance 1)
      | ',' :: _ =>
        let (es, c) ← readFlowItems? fuel indent (c.advance 1)
        some (e :: es, c)
      | _ => none

/-- The members of a mapping up to its closing brace. A key alone has an empty value. -/
def readFlowMembers? : (fuel : Nat) → (indent : Int) → Cursor →
    Option (List (String × Entry) × Cursor)
  | 0, _, _ => none
  | fuel + 1, indent, c => do
    let c ← c.nextThing? indent (c.rest.length + 1)
    if c.rest.head? == some '\x7d' then some ([], c.advance 1)
    else
      let (key, value, c) ← readFlowPart? fuel indent c
      let member := (← memberName? key, value.getD .nothing)
      match c.rest with
      | '\x7d' :: _ => some ([member], c.advance 1)
      | ',' :: _ =>
        let (es, c) ← readFlowMembers? fuel indent (c.advance 1)
        some (member :: es, c)
      | _ => none

end

/-! ### Blocks -/

/-- A node that is no block of entries, and the place after it. -/
def readInline? (fuel : Nat) (indent : Int) (p : Properties) (c : Cursor) :
    Option (Entry × Cursor) :=
  match c.rest with
  | '*' :: _ => readAlias? c
  | '"' :: _ => readQuotedNode? false indent c
  | '\'' :: _ => readQuotedNode? false indent c
  | '[' :: _ => (readFlowItems? fuel indent (c.advance 1)).map fun (es, c) => (.list es, c)
  | '\x7b' :: _ => do
    let (es, c) ← readFlowMembers? fuel indent (c.advance 1)
    some (← mapping? es, c)
  | '|' :: _ => (readBlock? false indent (c.advance 1)).map fun (cs, c) =>
    (.text (String.ofList cs), c)
  | '>' :: _ => (readBlock? true indent (c.advance 1)).map fun (cs, c) =>
    (.text (String.ofList cs), c)
  | _ => do
    let (cs, c) ← readPlain? false indent c
    some (← resolve? p.tag (String.ofList cs), c)

/-- Whether a node at a place on a line of its own belongs to what is indented by `indent`. The
entries of a sequence need not be indented further than the key that it is the value of. -/
def belongs (indent : Int) (isValue : Bool) (c : Cursor) : Bool :=
  !c.isOver && (indent < c.column || (isValue && indent = c.column && c.isAt "-"))

mutual

/-- The node after a mark or a key, and the first thing on a later line. The node belongs to what
is indented by `indent`, may be the value of a key there, and `compact` says whether a block of
entries may begin on the same line. Each call may use one unit of `fuel` less than its caller. -/
def readNode? : (fuel : Nat) → (indent : Int) → (isValue compact : Bool) → Properties → Cursor →
    Option (Entry × Cursor)
  | 0, _, _, _, _, _ => none
  | fuel + 1, indent, isValue, compact, p, c => do
    if c.endsLine then
      let c ← c.nextLine?
      if belongs indent isValue c then readContent? fuel indent isValue true p c
      else some (named p (← resolve? p.tag "") c)
    else
      let spaces := c.rest.takeWhile isSpace
      readContent? fuel indent isValue (compact && spaces.all (· == ' ')) p c.skipSpaces

/-- The node at a place, and the first thing on a later line; `fresh` says whether a block of
entries may begin there. -/
def readContent? : (fuel : Nat) → (indent : Int) → (isValue fresh : Bool) → Properties → Cursor →
    Option (Entry × Cursor)
  | 0, _, _, _, _, _ => none
  | fuel + 1, indent, isValue, fresh, p, c => do
    if fresh && c.isAt "-" then
      let (es, c) ← readItems? fuel c.column c
      some (named p (.list es) c)
    else if fresh && (c.isAt "?" || (readKey? c).isSome) then
      let (es, c) ← readMembers? fuel c.column c
      some (named p (← mapping? es) c)
    else if isProperty c then
      let (p, c) ← readProperty? false p c
      readNode? fuel indent isValue false p c
    else
      let (e, c) ← readInline? fuel indent p c
      let (e, c) := named p e c
      some (e, ← c.nextLine?)

/-- The items of a sequence in a column, and the first thing after them. -/
def readItems? : (fuel : Nat) → (column : Nat) → Cursor → Option (List Entry × Cursor)
  | 0, _, _ => none
  | fuel + 1, column, c => do
    let (e, c) ← readNode? fuel column false true {} (c.advance 1)
    if belongs column true c then
      if column < c.column then none
      else
        let (es, c) ← readItems? fuel column c
        some (e :: es, c)
    else some ([e], c)

/-- The members of a mapping in a column, and the first thing after them. A key is a scalar on one
line, or a node after a question mark. -/
def readMembers? : (fuel : Nat) → (column : Nat) → Cursor →
    Option (List (String × Entry) × Cursor)
  | 0, _, _ => none
  | fuel + 1, column, c => do
    let (key, e, c) ←
      if c.isAt "?" then do
        let (key, c) ← readNode? fuel column true true {} (c.advance 1)
        if c.column == column && c.isAt ":" then do
          let (e, c) ← readNode? fuel column true true {} (c.advance 1)
          some (key, e, c)
        else some (key, .nothing, c)
      else do
        let (key, c) ← readKey? c
        let (e, c) ← readNode? fuel column true false {} c
        some (key, e, c)
    let member := (← memberName? key, e)
    if c.isOver || c.column < column then some ([member], c)
    else if column < c.column then none
    else
      let (es, c) ← readMembers? fuel column c
      some (member :: es, c)

end

/-! ### Documents -/

/-- The place after the lines at the start of a document that say how it is to be read, and whether
there are any. Each line takes up a character, so that the length of the text bounds `fuel`. -/
def skipDirectives? : (fuel : Nat) → Cursor → Option (Bool × Cursor)
  | 0, _ => none
  | fuel + 1, c =>
    if c.column == 0 && c.rest.head? == some '%' then do
      let c ← (c.atLine ((c.rest.dropWhile (· != '\n')).drop 1)).nextLine?
      let (_, c) ← skipDirectives? fuel c
      some (true, c)
    else some (false, c)

/-- The place after the marks that end a document. -/
def skipEnds? : (fuel : Nat) → Cursor → Option Cursor
  | 0, _ => none
  | fuel + 1, c =>
    if c.column == 0 && c.isAt "..." then (c.advance 3).nextLine?.bind (skipEnds? fuel) else some c

/-- The node of a document, and the first thing after it. -/
def readDocument? (fuel : Nat) (c : Cursor) : Option (Entry × Cursor) := do
  let (directed, c) ← skipDirectives? fuel c
  if c.column == 0 && c.isAt "---" then readNode? fuel (-1) false false {} (c.advance 3)
  else if directed then none
  else readContent? fuel (-1) false true {} c

/-- The entries of a text, which holds one document at most. Of three calls of the readers one
inside the other at least one consumes a character, so the length of the text bounds their
nesting. -/
def read? (text : String) : Option (List (String × Entry)) := do
  let cs := unifyBreaks text.toList
  let fuel := 3 * cs.length + 3
  let c ← (Cursor.mk 0 cs []).nextLine?
  let c ← skipEnds? fuel c
  if c.rest.isEmpty then some []
  else
    let (e, c) ← readDocument? fuel c
    let c ← skipEnds? fuel c
    match c.rest, e with
    | [], .table es => some es
    | _, _ => none

end Cohort.CommandLine.Yaml
