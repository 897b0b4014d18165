import Cohort.CommandLine.Reader
import Cohort.CommandLine.Yaml.Cursor
set_option autoImplicit false

/-!
# Scalars of a YAML text

A scalar is plain, in quotes, or a block of lines. Only a plain one can be anything but a text:
nothing, a truth value or a number, as it looks or as its tag says.

## Main definitions

* `Cohort.CommandLine.Yaml.resolve?` — the entry of a plain scalar.
* `Cohort.CommandLine.Yaml.readPlain?`, `Cohort.CommandLine.Yaml.readQuoted?`,
  `Cohort.CommandLine.Yaml.readBlock?` — the scalars at a place.
-/

namespace Cohort.CommandLine.Yaml

/-! ### Meanings -/

/-- The whole number that a plain scalar looks like. -/
def integer? : List Char → Option Int
  | '0' :: 'x' :: cs => Numeral.inBase? 16 cs
  | '0' :: 'o' :: cs => Numeral.inBase? 8 cs
  | '+' :: cs => Numeral.integer? cs
  | cs => Numeral.integer? cs

/-- Whether a plain scalar looks like a float. -/
def looksFloat (s : String) : Bool :=
  s ∈ [".inf", ".Inf", ".INF", "+.inf", "+.Inf", "+.INF", "-.inf", "-.Inf", "-.INF", ".nan", "NaN",
    ".NAN"] ||
    (s.toList.any Char.isDigit && (Numeral.float? s.toList).isSome)

/-- The entry of a plain scalar by its looks. The words for floats that are not finite look like
floats but are refused. -/
def byLooks? (s : String) : Option Entry :=
  if s ∈ ["", "~", "null"] then some .nothing
  else if s = "true" then some (.bool true)
  else if s = "false" then some (.bool false)
  else
    match integer? s.toList with
    | some n => some (.integer n)
    | none => if looksFloat s then (Numeral.float? s.toList).map .float else some (.text s)

/-- The entry of a plain scalar with a tag. One that its tag does not fit is nothing. -/
def resolve? (tag : Option String) (s : String) : Option Entry :=
  match tag with
  | none => byLooks? s
  | some "bool" =>
    some (if s = "true" then .bool true else if s = "false" then .bool false else .nothing)
  | some "int" => some (((Numeral.integer? s.toList).map .integer).getD .nothing)
  | some "float" =>
    if looksFloat s then (Numeral.float? s.toList).map .float else some .nothing
  | some "null" => some .nothing
  | some _ => some (.text s)

/-! ### Plain scalars -/

/-- Whether a plain scalar may begin with a text. -/
def startsPlain (flow : Bool) : List Char → Bool
  | [] => false
  | c :: cs =>
    if c ∈ ['-', '?', ':'] then !endsWord cs && !(flow && cs.head?.any isFlowMark)
    else !isSpace c && c != '\n' && !isFlowMark c &&
      c ∉ ['#', '&', '*', '!', '|', '>', '\'', '"', '%', '@', '\x60']

/-- The part of a plain scalar on one line. -/
def plainChars (flow : Bool) : (afterSpace : Bool) → List Char → List Char
  | _, [] => []
  | afterSpace, c :: cs =>
    if c == '\n' || (c == '#' && afterSpace) || (flow && isFlowMark c) ||
      (c == ':' && (endsWord cs || (flow && cs.head?.any isFlowMark))) then []
    else c :: plainChars flow (isSpace c) cs

/-- The part of a plain scalar on one line, without the spaces after it. -/
def plainLine (flow : Bool) (cs : List Char) : List Char :=
  ((plainChars flow true cs).reverse.dropWhile isSpace).reverse

/-- The lines of a plain scalar after its first one. -/
def readPlainLines (flow : Bool) (indent : Int) : (fuel : Nat) → Cursor → List Char × Cursor
  | 0, c => ([], c)
  | fuel + 1, c =>
    match c.lineBreaks? indent (c.rest.length + 1) with
    | none => ([], c)
    | some (breaks, next) =>
      let line := plainLine flow next.rest
      if line.isEmpty then ([], c)
      else
        let (cs, c) := readPlainLines flow indent fuel (next.advance line.length)
        (Cursor.folded breaks ++ line ++ cs, c)

/-- A plain scalar. Its later lines are indented by more than `indent`. -/
def readPlain? (flow : Bool) (indent : Int) (c : Cursor) : Option (List Char × Cursor) :=
  if startsPlain flow c.rest then
    let line := plainLine flow c.rest
    let (cs, c) := readPlainLines flow indent c.rest.length (c.advance line.length)
    some (line ++ cs, c)
  else none

/-! ### Quoted scalars -/

/-- The character that a one-letter escape stands for. -/
def simpleEscape? : Char → Option Char
  | '0' => some '\x00'
  | 'a' => some '\x07'
  | 'b' => some '\x08'
  | 't' => some '\t'
  | '\t' => some '\t'
  | 'n' => some '\n'
  | 'v' => some '\x0b'
  | 'f' => some '\x0c'
  | 'r' => some '\r'
  | 'e' => some '\x1b'
  | ' ' => some ' '
  | '"' => some '"'
  | '/' => some '/'
  | '\\' => some '\\'
  | 'N' => some '\u0085'
  | '_' => some '\u00a0'
  | 'L' => some '\u2028'
  | 'P' => some '\u2029'
  | _ => none

/-- How many hexadecimal digits follow the letter of an escape. -/
def escapeWidth (c : Char) : Nat :=
  if c == 'x' then 2 else if c == 'u' then 4 else if c == 'U' then 8 else 0

/-- The character of an escape after its backslash, and how many characters it takes up. -/
def escape? : List Char → Option (Char × Nat)
  | [] => none
  | c :: cs =>
    let width := escapeWidth c
    if width = 0 then (simpleEscape? c).map (·, 1)
    else if cs.length < width then none
    else (Reader.codePoint? (cs.take width)).map (·, width + 1)

/-- The characters of a scalar after its opening quote. A quote is doubled between single quotes,
and escapes stand between double ones. Later lines, unless it has to stay on one, are indented by
more than `indent`. -/
def readQuoted? (quote : Char) (oneLine : Bool) (indent : Int) :
    (fuel : Nat) → Cursor → Option (List Char × Cursor)
  | 0, _ => none
  | fuel + 1, c =>
    let read := readQuoted? quote oneLine indent fuel
    let breaks? := fun (c : Cursor) =>
      if oneLine then none else c.lineBreaks? indent (c.rest.length + 1)
    match c.rest with
    | [] => none
    | d :: ds =>
      if d == quote then
        if quote == '\'' && ds.head? == some quote then Reader.cons quote (read (c.advance 2))
        else some ([], c.advance 1)
      else if d == '\\' && quote == '"' then
        if ds.head? == some '\n' then do
          let (breaks, c) ← breaks? (c.advance 1)
          Reader.append (List.replicate (breaks - 1) '\n') (read c)
        else do
          let (e, size) ← escape? ds
          Reader.cons e (read (c.advance (size + 1)))
      else if c.skipSpaces.rest.head? == some '\n' then do
        let (breaks, c) ← breaks? c
        Reader.append (Cursor.folded breaks) (read c)
      else Reader.cons d (read (c.advance 1))

/-! ### Blocks of lines -/

/-- What becomes of the line breaks at the end of a block. -/
inductive Chomping where
  | strip
  | clip
  | keep
deriving DecidableEq, Repr

/-- What the header of a block says after its mark: the indentation, if it is given, and the line
breaks at the end. Either comes first. -/
def header (cs : List Char) : Option Nat × Chomping × List Char :=
  let size := fun (cs : List Char) =>
    match cs with
    | c :: rest => if c.isDigit && c != '0' then (some (c.toNat - 0x30), rest) else (none, cs)
    | [] => (none, [])
  let chomping := fun (cs : List Char) =>
    match cs with
    | '-' :: cs => (Chomping.strip, cs)
    | '+' :: cs => (Chomping.keep, cs)
    | cs => (Chomping.clip, cs)
  match size cs with
  | (some n, cs) => (some n, chomping cs)
  | (none, cs) =>
    let (ending, cs) := chomping cs
    let (n, cs) := size cs
    (n, ending, cs)

/-- How far the first line that is not blank is indented. -/
def margin : (fuel : Nat) → List Char → Nat
  | 0, _ => 0
  | fuel + 1, cs =>
    let spaces := (cs.takeWhile (· == ' ')).length
    match cs.drop spaces with
    | '\n' :: rest => margin fuel rest
    | _ => spaces

/-- The lines of a block that are indented by at least `size`, without that indentation, and what
follows them. Lines of spaces may be shorter. -/
def blockLines (size : Nat) : (fuel : Nat) → List Char → List (List Char) × List Char
  | 0, cs => ([], cs)
  | fuel + 1, cs =>
    let line := cs.takeWhile (· != '\n')
    if cs.isEmpty || (!line.all (· == ' ') && (line.takeWhile (· == ' ')).length < size) then
      ([], cs)
    else
      let (lines, rest) := blockLines size fuel (cs.drop (line.length + 1))
      (line.drop size :: lines, rest)

/-- The text of lines without line breaks at the end; `blanks` empty lines precede them. A folded
line break is a space, or nothing before empty lines, unless a line beside it begins with a
space. -/
def joinLines (folds : Bool) :
    (previous : Option Bool) → (blanks : Nat) → List (List Char) → List Char
  | _, _, [] => []
  | previous, blanks, [] :: lines => joinLines folds previous (blanks + 1) lines
  | previous, blanks, (c :: cs) :: lines =>
    let gap := match previous with
      | none => List.replicate blanks '\n'
      | some spaced =>
        if folds && !spaced && !isSpace c then Cursor.folded (blanks + 1)
        else List.replicate (blanks + 1) '\n'
    gap ++ c :: cs ++ joinLines folds (some (isSpace c)) 0 lines

/-- The line breaks at the end of a block whose last line, if it has one that is not empty, ends
in a line break unless the text ends there. -/
def lastBreaks (chomping : Chomping) (lines : List (List Char)) (textEnds : Bool) : List Char :=
  let blanks := (lines.reverse.takeWhile List.isEmpty).length
  let own := if blanks = 0 && textEnds then 0 else 1
  if blanks = lines.length then
    if chomping = .keep then List.replicate blanks '\n' else []
  else
    match chomping with
    | .strip => []
    | .clip => List.replicate own '\n'
    | .keep => List.replicate (own + blanks) '\n'

/-- A block of lines after its mark, which says whether line breaks are folded. Its lines are
indented by more than `indent`. -/
def readBlock? (folds : Bool) (indent : Int) (c : Cursor) : Option (List Char × Cursor) :=
  let (given, chomping, rest) := header c.rest
  let c := c.advance (c.rest.length - rest.length)
  if c.endsLine then
    let text := (rest.dropWhile (· != '\n')).drop 1
    let least := (indent + 1).toNat
    let size := match given with
      | some n => indent.toNat + n
      | none => max least (margin text.length text)
    let (lines, rest) := blockLines size text.length text
    let textEnds := rest.isEmpty && text.getLast? != some '\n'
    let chars := joinLines folds none 0 lines
    some (chars ++ lastBreaks chomping lines textEnds, c.atLine rest)
  else none

end Cohort.CommandLine.Yaml
