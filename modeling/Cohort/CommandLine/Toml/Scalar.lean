import Cohort.CommandLine.Entry
import Cohort.CommandLine.Reader
import Cohort.Instant.Reading
import Cohort.Json.Document
set_option autoImplicit false

/-!
# Keys and scalars of a TOML text

A key is bare or a string of one line. A scalar is a string, a truth value, a number or a moment,
which is a date, a time of day or both.

## Main definitions

* `Cohort.CommandLine.Toml.readString?` — a string at the front of a text.
* `Cohort.CommandLine.Toml.readKey?` — a dotted key at the front of a text.
* `Cohort.CommandLine.Toml.readWord?` — a scalar that is no string at the front of a text.
-/

namespace Cohort.CommandLine.Toml

/-! ### Spaces -/

/-- Whether a character separates parts of a line. -/
def isSpace (c : Char) : Bool :=
  c == ' ' || c == '\t'

/-- Whether a character stands neither in comments nor in strings of one line. -/
def isControl (c : Char) : Bool :=
  (c.toNat < 0x20 && c != '\t') || c.toNat == 0x7F

/-- A text from its first character on that is not a space. -/
def skipSpace (cs : List Char) : List Char :=
  cs.dropWhile isSpace

/-- A text after spaces, line breaks and comments. -/
def skipLines (inComment : Bool) : List Char → List Char
  | [] => []
  | '\n' :: cs => skipLines false cs
  | '\r' :: '\n' :: cs => skipLines false cs
  | c :: cs =>
    if inComment then if isControl c then c :: cs else skipLines true cs
    else if isSpace c then skipLines false cs
    else if c == '#' then skipLines true cs
    else c :: cs

/-- The text after the rest of a line, which holds nothing but a comment. -/
def endLine? (cs : List Char) : Option (List Char) :=
  let cs := skipSpace cs
  let cs := if cs.head? = some '#' then cs.dropWhile fun c => !isControl c else cs
  match cs with
  | [] => some []
  | '\n' :: cs => some cs
  | '\r' :: '\n' :: cs => some cs
  | _ => none

/-- A text after a line break, if one stands at its front. -/
def skipBreak : List Char → List Char
  | '\n' :: cs => cs
  | '\r' :: '\n' :: cs => cs
  | cs => cs

/-! ### Strings -/

/-- The character that a one-letter escape stands for. -/
def simpleEscape? (c : Char) : Option Char :=
  if c == '/' then none else Json.Document.simpleEscape? c

/-- Whether a character begins a line break in front of others. -/
def isBreak (c : Char) (cs : List Char) : Bool :=
  c == '\n' || (c == '\r' && cs.head? == some '\n')

/-- The characters of a string in double quotes after its opening, with what follows its end. A long
string ends in three quotes and holds line breaks; a backslash before a line break drops the spaces
and line breaks up to the next character. -/
def readText? (long trimming : Bool) : List Char → Option (List Char × List Char)
  | [] => none
  | '\\' :: 'u' :: a :: b :: c :: d :: cs => do
    Reader.cons (← Reader.codePoint? [a, b, c, d]) (readText? long false cs)
  | '\\' :: 'U' :: a :: b :: c :: d :: e :: f :: g :: h :: cs => do
    Reader.cons (← Reader.codePoint? [a, b, c, d, e, f, g, h]) (readText? long false cs)
  | '\\' :: c :: cs =>
    match simpleEscape? c with
    | some c => Reader.cons c (readText? long false cs)
    | none =>
      if long && (skipBreak (skipSpace (c :: cs)) != skipSpace (c :: cs)) then
        readText? long true cs
      else none
  | c :: cs =>
    if trimming && (isSpace c || isBreak c cs) then readText? long true cs
    else if c == '"' then
      if long then
        match cs with
        | '"' :: '"' :: '"' :: '"' :: rest => some (['"', '"'], rest)
        | '"' :: '"' :: '"' :: rest => some (['"'], rest)
        | '"' :: '"' :: rest => some ([], rest)
        | _ => Reader.cons c (readText? long false cs)
      else some ([], cs)
    else if isControl c && !(long && isBreak c cs) then none
    else Reader.cons c (readText? long false cs)

/-- The characters of a string in single quotes after its opening, with what follows its end; they
stand for themselves. -/
def readLiteral? (long : Bool) : List Char → Option (List Char × List Char)
  | [] => none
  | c :: cs =>
    if c == '\'' then
      if long then
        match cs with
        | '\'' :: '\'' :: '\'' :: '\'' :: rest => some (['\'', '\''], rest)
        | '\'' :: '\'' :: '\'' :: rest => some (['\''], rest)
        | '\'' :: '\'' :: rest => some ([], rest)
        | _ => Reader.cons c (readLiteral? long cs)
      else some ([], cs)
    else if isControl c && !(long && isBreak c cs) then none
    else Reader.cons c (readLiteral? long cs)

/-- A string of one line at the front of a text. -/
def readShortString? : List Char → Option (List Char × List Char)
  | '"' :: cs => readText? false false cs
  | '\'' :: cs => readLiteral? false cs
  | _ => none

/-- A string at the front of a text. A line break at the start of a long one is dropped. -/
def readString? : List Char → Option (List Char × List Char)
  | '"' :: '"' :: '"' :: cs => readText? true false (skipBreak cs)
  | '\'' :: '\'' :: '\'' :: cs => readLiteral? true (skipBreak cs)
  | cs => readShortString? cs

/-! ### Keys -/

/-- Whether a character stands in a key without quotes. -/
def isKeyChar (c : Char) : Bool :=
  c.isAlphanum || c == '_' || c == '-'

/-- A part of a key at the front of a text. -/
def readKeyPart? (cs : List Char) : Option (String × List Char) :=
  let bare := cs.takeWhile isKeyChar
  if bare.isEmpty then (readShortString? cs).map fun (part, rest) => (String.ofList part, rest)
  else some (String.ofList bare, cs.drop bare.length)

/-- A dotted key at the front of a text, of no more than `most` parts. -/
def readKey? : (most : Nat) → List Char → Option (List String × List Char)
  | 0, _ => none
  | most + 1, cs => do
    let (part, rest) ← readKeyPart? cs
    match skipSpace rest with
    | '.' :: rest =>
      let (parts, rest) ← readKey? most (skipSpace rest)
      return (part :: parts, rest)
    | rest => return ([part], rest)

/-! ### Scalars -/

/-- Digits without the lines between groups of them. -/
def ungroup? (isDigit : Char → Bool) (afterDigit : Bool) : List Char → Option (List Char)
  | [] => some []
  | '_' :: c :: cs =>
    if afterDigit && isDigit c then (ungroup? isDigit true cs).map (c :: ·) else none
  | c :: cs => (ungroup? isDigit (isDigit c) cs).map (c :: ·)

/-- A whole number, if it fits 64 bits with a sign. -/
def integer? (n : Int) : Option Entry :=
  if Numeral.isInt64 n then some (.integer n) else none

/-- A whole number in another base, which has no sign. -/
def inBase? (base : Nat) (cs : List Char) : Option Entry := do
  let isDigit := fun c => (Json.Document.hexDigit? c).any (· < base)
  let n ← Numeral.ofDigits? base (← ungroup? isDigit false cs)
  integer? n

/-- A decimal number under a sign. One that is too large is refused above zero only. -/
def decimal? (negative : Bool) (cs : List Char) : Option Entry := do
  let (t, rest) ← Json.readNumber? (← ungroup? Char.isDigit false cs)
  guard (rest.isEmpty && !t.negative)
  if t.fraction.isNone && t.exponent.isNone then
    let n : Int := Decimal.ofDigits t.whole
    integer? (if negative then -n else n)
  else
    let x := (Decimal.Literal.mk negative t.whole (t.fraction.getD []) (t.exponent.getD 0)).toFloat
    guard (x.isFinite || negative)
    return .float x

/-- A number. -/
def number? : List Char → Option Entry
  | '0' :: 'x' :: cs => inBase? 16 cs
  | '0' :: 'o' :: cs => inBase? 8 cs
  | '0' :: 'b' :: cs => inBase? 2 cs
  | cs =>
    match Decimal.splitSign cs with
    | (negative, ['i', 'n', 'f']) => some (.float (if negative then -1.0 / 0.0 else 1.0 / 0.0))
    | (_, ['n', 'a', 'n']) => some (.float (0.0 / 0.0))
    | (negative, cs) => decimal? negative cs

/-- The text after a number of two digits, which lies within bounds. -/
def skipPair? (least most : Nat) (cs : List Char) : Option (List Char) := do
  let (n, rest) ← Instant.readDigits? 2 2 cs
  if least ≤ n ∧ n ≤ most then some rest else none

/-- The text after a date. -/
def skipDate? (cs : List Char) : Option (List Char) := do
  let (year, rest) ← Instant.readDigits? 4 4 cs
  let (month, rest) ← Instant.readDigits? 2 2 (← Instant.skipChar? '-' rest)
  let (day, rest) ← Instant.readDigits? 2 2 (← Instant.skipChar? '-' rest)
  if Date.isValid ⟨year, month, day⟩ then some rest else none

/-- The text after a time of day, in which every minute may have a leap second. -/
def skipTime? (cs : List Char) : Option (List Char) := do
  let rest ← skipPair? 0 23 cs
  let rest ← skipPair? 0 59 (← Instant.skipChar? ':' rest)
  let rest ← skipPair? 0 60 (← Instant.skipChar? ':' rest)
  match rest with
  | '.' :: c :: cs => if c.isDigit then some (cs.dropWhile Char.isDigit) else some rest
  | _ => some rest

/-- The text after a zone, if one stands at its front. -/
def skipZone (cs : List Char) : List Char :=
  match cs with
  | c :: rest =>
    if c == 'Z' || c == 'z' then rest
    else if c == '+' || c == '-' then
      ((skipPair? 0 23 rest).bind (Instant.skipChar? ':') |>.bind (skipPair? 0 59)).getD cs
    else cs
  | [] => []

/-- The text after a date, a time of day, or both with or without a zone. -/
def skipMoment? (cs : List Char) : Option (List Char) :=
  match skipDate? cs with
  | some rest => (((Instant.skipSeparator? rest).bind skipTime?).map skipZone).getD rest
  | none => skipTime? cs

/-- Whether a character stands in a value without quotes. -/
def isWordChar (c : Char) : Bool :=
  c.isAlphanum || c == '_' || c == '-' || c == '+' || c == '.'

/-- A truth value, a number or a moment at the front of a text. -/
def readWord? (cs : List Char) : Option (Entry × List Char) :=
  match skipMoment? cs with
  | some rest => some (.text (String.ofList (cs.take (cs.length - rest.length))), rest)
  | none =>
    let word := cs.takeWhile isWordChar
    let e :=
      if word = "true".toList then some (.bool true)
      else if word = "false".toList then some (.bool false)
      else number? word
    e.map (·, cs.drop word.length)

end Cohort.CommandLine.Toml
