import Cohort.CommandLine.Comment
import Cohort.CommandLine.Entry
import Cohort.CommandLine.Reader
import Cohort.Json.Document
import Cohort.Text.Blank
set_option autoImplicit false

/-!
# JSON5

JSON5 is JSON as people like to type it: names without quotes, strings in single quotes, comments,
commas after the last part, and numbers in more forms.

## Main definitions

* `Cohort.CommandLine.Json5.readString?` — a string at the front of a text.
* `Cohort.CommandLine.Json5.readNumber?` — a number at the front of a text.
* `Cohort.CommandLine.Json5.readValue?` — a value at the front of a text.
* `Cohort.CommandLine.Json5.read?` — the entries of a text.
-/

namespace Cohort.CommandLine.Json5

open Json.Document (Piece joinPieces? hexDigit?)

/-! ### Blanks -/

/-- Whether a character ends a line. -/
def isBreak (c : Char) : Bool :=
  c == '\n' || c == '\r' || c == '\u2028' || c == '\u2029'

/-- Blanks are those of texts, without the next-line control, and the mark of the byte order. -/
def isBlank (c : Char) : Bool :=
  (Text.isBlank c && c != '\u0085') || c == '\ufeff'

/-- Comments end where they first can. -/
def comments : CommentStyle where
  isBlank := isBlank
  isBreak := isBreak
  nested := false

/-! ### Strings and names -/

/-- The character that a one-letter escape stands for. Digits and the letters of longer escapes
stand for none, and any other character for itself. -/
def simpleEscape? (c : Char) : Option Char :=
  if c.isDigit || c == 'x' || c == 'u' then none
  else if c == 'v' then some '\x0b'
  else if c ∈ ['b', 'f', 'n', 'r', 't'] then Json.Document.simpleEscape? c
  else some c

/-- The unit that hexadecimal digits name. -/
def unit? (digits : List Char) : Option Piece :=
  (Numeral.ofDigits? 16 digits).map .unit

/-- The pieces of a string after its opening quote, with what follows the closing one. -/
def readPieces? (quote : Char) : List Char → Option (List Piece × List Char)
  | [] => none
  | '\\' :: 'u' :: a :: b :: c :: d :: cs => do
    Reader.cons (← unit? [a, b, c, d]) (readPieces? quote cs)
  | '\\' :: 'x' :: a :: b :: cs => do
    Reader.cons (← unit? [a, b]) (readPieces? quote cs)
  | '\\' :: '\r' :: '\n' :: cs => readPieces? quote cs
  | '\\' :: '0' :: cs => Reader.cons (.char '\x00') (readPieces? quote cs)
  | '\\' :: c :: cs =>
    if isBreak c then readPieces? quote cs
    else do Reader.cons (.char (← simpleEscape? c)) (readPieces? quote cs)
  | c :: cs =>
    if c == quote then some ([], cs)
    else if isBreak c then none
    else Reader.cons (.char c) (readPieces? quote cs)

/-- A string at the front of a text. -/
def readString? : List Char → Option (String × List Char)
  | [] => none
  | quote :: cs =>
    if quote == '"' || quote == '\'' then do
      let (pieces, rest) ← readPieces? quote cs
      return (String.ofList (← joinPieces? pieces), rest)
    else none

/-- Whether a character may begin a name. Beyond ASCII, any character but a blank may. -/
def isNameStart (c : Char) : Bool :=
  c.isAlpha || c == '$' || c == '_' || (0x7F < c.toNat && !isBlank c)

/-- The pieces of a name without quotes, with what follows. -/
def readNamePieces? (isStart : Bool) : List Char → Option (List Piece × List Char)
  | '\\' :: 'u' :: a :: b :: c :: d :: cs => do
    Reader.cons (← unit? [a, b, c, d]) (readNamePieces? false cs)
  | '\\' :: _ => none
  | c :: cs =>
    if isNameStart c || (!isStart && c.isDigit) then
      Reader.cons (.char c) (readNamePieces? false cs)
    else if isStart then none
    else some ([], c :: cs)
  | [] => if isStart then none else some ([], [])

/-- The name of a member at the front of a text. -/
def readName? (cs : List Char) : Option (String × List Char) :=
  match cs with
  | '"' :: _ => readString? cs
  | '\'' :: _ => readString? cs
  | _ => do
    let (pieces, rest) ← readNamePieces? true cs
    return (String.ofList (← joinPieces? pieces), rest)

/-! ### Numbers -/

/-- The power of ten at the front of a text, with its characters; it may be missing. -/
def splitExponent (cs : List Char) : List Char × List Char :=
  match cs with
  | c :: rest =>
    let sign := rest.takeWhile fun c => c == '+' || c == '-'
    let (digits, after) := Decimal.splitDigits (rest.drop sign.length)
    if (c == 'e' || c == 'E') && sign.length ≤ 1 && !digits.isEmpty then
      (c :: sign ++ digits, after)
    else ([], cs)
  | [] => ([], [])

/-- The digits before the point at the front of a text: a zero stands alone. -/
def splitWhole : List Char → List Char × List Char
  | '0' :: cs => (['0'], cs)
  | cs => Decimal.splitDigits cs

/-- A decimal number at the front of a text, under a sign. Without a point and a power of ten it
has to fit 64 bits, and otherwise it has to be finite. -/
def readDecimal? (sign : List Char) (cs : List Char) : Option (Entry × List Char) :=
  let (whole, rest) := splitWhole cs
  match rest with
  | '.' :: rest => do
    let (fraction, rest) := Decimal.splitDigits rest
    let (exponent, rest) := splitExponent rest
    let x ← Decimal.readFloat? (sign ++ whole ++ '.' :: fraction ++ exponent)
    return (.float x, rest)
  | _ => do
    let (exponent, rest) := splitExponent rest
    if exponent.isEmpty then return (.integer (← Numeral.integer? (sign ++ whole)), rest)
    else return (.float (← Decimal.readFloat? (sign ++ whole ++ exponent)), rest)

/-- A hexadecimal number at the front of a text after its mark. It has no sign and fits 32 bits. -/
def readHexadecimal? (cs : List Char) : Option (Entry × List Char) := do
  let digits := cs.takeWhile fun c => (hexDigit? c).isSome
  let n ← Numeral.ofDigits? 16 digits
  if n ≤ 0xFFFFFFFF then some (.integer n, cs.drop digits.length) else none

/-- A number at the front of a text. A plus sign stands only before decimal numbers. -/
def readNumber? (cs : List Char) : Option (Entry × List Char) :=
  let sign := (cs.take 1).filter fun c => c == '+' || c == '-'
  match cs.drop sign.length with
  | '0' :: 'x' :: rest => if sign.isEmpty then readHexadecimal? rest else none
  | '0' :: 'X' :: rest => if sign.isEmpty then readHexadecimal? rest else none
  | 'I' :: 'n' :: 'f' :: 'i' :: 'n' :: 'i' :: 't' :: 'y' :: rest =>
    if sign == ['+'] then none
    else some (.float (if sign.isEmpty then 1.0 / 0.0 else -1.0 / 0.0), rest)
  | 'N' :: 'a' :: 'N' :: rest => if sign == ['+'] then none else some (.float (0.0 / 0.0), rest)
  | rest => readDecimal? sign rest

/-! ### Values -/

mutual

/-- A value at the front of a text, with what follows it and the blanks after it. Each call may use
one unit of `fuel` less than its caller. -/
def readValue? : (fuel : Nat) → List Char → Option (Entry × List Char)
  | 0, _ => none
  | fuel + 1, cs => do
    let (e, rest) ← match cs with
      | 'n' :: 'u' :: 'l' :: 'l' :: rest => some (.nothing, rest)
      | 't' :: 'r' :: 'u' :: 'e' :: rest => some (.bool true, rest)
      | 'f' :: 'a' :: 'l' :: 's' :: 'e' :: rest => some (.bool false, rest)
      | '"' :: _ => (readString? cs).map fun (s, rest) => (.text s, rest)
      | '\'' :: _ => (readString? cs).map fun (s, rest) => (.text s, rest)
      | '[' :: rest =>
        ((comments.skip? rest).bind (readItems? fuel)).map fun (es, rest) => (.list es, rest)
      | '\x7b' :: rest =>
        ((comments.skip? rest).bind (readMembers? fuel)).map fun (es, rest) =>
          (.table (Entry.distinct es), rest)
      | _ => readNumber? cs
    return (e, ← comments.skip? rest)

/-- The items of a list up to its closing bracket. -/
def readItems? : (fuel : Nat) → List Char → Option (List Entry × List Char)
  | 0, _ => none
  | fuel + 1, cs =>
    match cs with
    | ']' :: rest => some ([], rest)
    | cs => do
      let (e, rest) ← readValue? fuel cs
      match rest with
      | ']' :: rest => return ([e], rest)
      | ',' :: rest =>
        let (es, rest) ← readItems? fuel (← comments.skip? rest)
        return (e :: es, rest)
      | _ => none

/-- The members of an object up to its closing brace. -/
def readMembers? : (fuel : Nat) → List Char → Option (List (String × Entry) × List Char)
  | 0, _ => none
  | fuel + 1, cs =>
    match cs with
    | '\x7d' :: rest => some ([], rest)
    | cs => do
      let (name, rest) ← readName? cs
      match ← comments.skip? rest with
      | ':' :: rest =>
        let (e, rest) ← readValue? fuel (← comments.skip? rest)
        match rest with
        | '\x7d' :: rest => return ([(name, e)], rest)
        | ',' :: rest =>
          let (es, rest) ← readMembers? fuel (← comments.skip? rest)
          return ((name, e) :: es, rest)
        | _ => none
      | _ => none

end

/-- The entries of a text. Of two calls of the readers one inside the other at least one consumes a
character, so the length of the text bounds their nesting. -/
def read? (text : String) : Option (List (String × Entry)) := do
  let cs ← comments.skip? text.toList
  match ← readValue? (2 * cs.length + 1) cs with
  | (.table es, []) => some es
  | _ => none

end Cohort.CommandLine.Json5
