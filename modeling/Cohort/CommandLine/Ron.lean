import Cohort.CommandLine.Comment
import Cohort.CommandLine.Entry
import Cohort.CommandLine.Reader
set_option autoImplicit false

/-!
# RON

In RON, structures and tuples stand in parentheses, maps in braces and lists in brackets. A
structure or a tuple may follow its name, which means nothing here, and what may be missing is
written `None` or `Some(…)`.

## Main definitions

* `Cohort.CommandLine.Ron.readString?` — a string at the front of a text.
* `Cohort.CommandLine.Ron.readNumber?` — a number at the front of a text.
* `Cohort.CommandLine.Ron.readValue?` — a value at the front of a text.
* `Cohort.CommandLine.Ron.read?` — the entries of a text.
-/

namespace Cohort.CommandLine.Ron

/-! ### Blanks -/

/-- Comments may stand inside comments. -/
def comments : CommentStyle where
  isBlank c := c == ' ' || c == '\t' || c == '\n' || c == '\r'
  isBreak c := c == '\n'
  nested := true

/-! ### Names -/

/-- Whether a character may begin a name. -/
def isNameStart (c : Char) : Bool :=
  c.isAlpha || c == '_'

/-- Whether a character may stand in a name. -/
def isNameChar (c : Char) : Bool :=
  isNameStart c || c.isDigit

/-- Whether a character may stand in a name after its mark. -/
def isMarkedChar (c : Char) : Bool :=
  isNameChar c || c == '.' || c == '+' || c == '-'

/-- A name at the front of a text. After the mark `r#` it may hold more characters than without. -/
def readName? (cs : List Char) : Option (List Char × List Char) :=
  let marked := fun (cs : List Char) =>
    let name := cs.takeWhile isMarkedChar
    if name.isEmpty then none else some (name, cs.drop name.length)
  match cs with
  | 'r' :: '#' :: rest => marked rest
  | 'r' :: '"' :: _ => none
  | c :: _ =>
    let name := cs.takeWhile isNameChar
    if isNameStart c && name.length == (cs.takeWhile isMarkedChar).length then
      some (name, cs.drop name.length)
    else none
  | [] => none

/-- The text after a word at its front, which no longer name begins with. -/
def skipWord? (word : String) (cs : List Char) : Option (List Char) :=
  let rest := cs.drop word.length
  if word.toList.isPrefixOf cs && !rest.head?.any isNameChar then some rest else none

/-! ### Strings -/

/-- The character that an escape after its backslash stands for, with what follows it. -/
def readEscape? : List Char → Option (Char × List Char)
  | 'n' :: cs => some ('\n', cs)
  | 'r' :: cs => some ('\r', cs)
  | 't' :: cs => some ('\t', cs)
  | '0' :: cs => some ('\x00', cs)
  | 'x' :: a :: b :: cs => (Reader.codePoint? [a, b]).map (·, cs)
  | 'u' :: '\x7b' :: cs =>
    let digits := cs.takeWhile (· != '\x7d')
    if digits.length ≤ 6 then
      match cs.drop digits.length with
      | _ :: rest => (Reader.codePoint? digits).map (·, rest)
      | [] => none
    else none
  | c :: cs => if c == '"' || c == '\'' || c == '\\' then some (c, cs) else none
  | [] => none

/-- The characters of a string after its opening quote, with what follows the closing one. Each
call drops a character, so that the length of the text bounds `fuel`. -/
def readChars? : (fuel : Nat) → List Char → Option (List Char × List Char)
  | 0, _ => none
  | fuel + 1, cs =>
    match cs with
    | [] => none
    | '"' :: rest => some ([], rest)
    | c :: rest => do
      let (c, rest) ← if c == '\\' then readEscape? rest else some (c, rest)
      Reader.cons c (readChars? fuel rest)

/-- The characters before an ending, with what follows it. -/
def readUntil? (ending : List Char) : List Char → Option (List Char × List Char)
  | [] => none
  | c :: cs =>
    if ending.isPrefixOf (c :: cs) then some ([], (c :: cs).drop ending.length)
    else Reader.cons c (readUntil? ending cs)

/-- A string at the front of a text. After the letter `r` it has no escapes and ends in a quote with
as many number signs as it began with. -/
def readString? : List Char → Option (String × List Char)
  | '"' :: cs => (readChars? (cs.length + 1) cs).map fun (s, rest) => (String.ofList s, rest)
  | 'r' :: cs =>
    let signs := cs.takeWhile (· == '#')
    match cs.drop signs.length with
    | '"' :: cs => (readUntil? ('"' :: signs) cs).map fun (s, rest) => (String.ofList s, rest)
    | _ => none
  | _ => none

/-- A single character in quotes at the front of a text. -/
def readChar? : List Char → Option (Char × List Char)
  | '\'' :: c :: cs => do
    match ← if c == '\\' then readEscape? cs else some (c, cs) with
    | (c, '\'' :: rest) => some (c, rest)
    | _ => none
  | _ => none

/-! ### Numbers -/

/-- Digits of a base without the lines between groups of them; there is none in front. -/
def natural? (base : Nat) (cs : List Char) : Option Nat :=
  if cs.head? == some '_' then none
  else (Numeral.ofDigits? base (cs.filter (· != '_'))).filter (· ≤ Numeral.maxNat64)

/-- Whether a character may stand in a whole number. -/
def isWholeChar (c : Char) : Bool :=
  (Json.Document.hexDigit? c).isSome || c == '_'

/-- A whole number at the front of a text. -/
def readWhole? (cs : List Char) : Option (Entry × List Char) := do
  let (negative, rest) := Decimal.splitSign cs
  let (base, rest) := match rest with
    | '0' :: 'x' :: rest => (16, rest)
    | '0' :: 'b' :: rest => (2, rest)
    | '0' :: 'o' :: rest => (8, rest)
    | rest => (10, rest)
  let digits := rest.takeWhile isWholeChar
  let n : Int ← (natural? base digits).map Int.ofNat
  let n := if negative then -n else n
  let rest := rest.drop digits.length
  if Numeral.isInt64 n then return (.integer n, rest)
  else if negative then none
  else return (.float (Decimal.toFloat ⟨n.toNat, 0⟩), rest)

/-- Whether a character may stand in a number that need not be whole. -/
def isFloatChar (c : Char) : Bool :=
  c.isDigit || c ∈ ['e', 'E', '.', '+', '-', '_']

/-- The characters of a number without the lines between groups of its digits. -/
def ungroup? (afterDigit : Bool) : List Char → Option (List Char)
  | [] => some []
  | c :: cs =>
    if c == '_' then if afterDigit then ungroup? true cs else none
    else (ungroup? (c.isDigit || c == 'e' || c == 'E' || (c != '.' && afterDigit)) cs).map (c :: ·)

/-- A number that need not be whole at the front of a text. -/
def readFloat? (cs : List Char) : Option (Entry × List Char) :=
  let words := ["inf", "+inf", "-inf", "NaN", "+NaN", "-NaN"]
  match words.findSome? fun word => (skipWord? word cs).map (word, ·) with
  | some (word, rest) => (Numeral.float? word.toList).map fun x => (.float x, rest)
  | none => do
    let digits := cs.takeWhile isFloatChar
    let x ← Numeral.float? (← ungroup? false digits)
    return (.float x, cs.drop digits.length)

/-- A number at the front of a text. One that looks whole but is not, or is too large, is read as
one that need not be. -/
def readNumber? (cs : List Char) : Option (Entry × List Char) :=
  let digits := match cs with
    | '+' :: cs => cs
    | '-' :: cs => cs
    | cs => cs
  let looksWhole := (digits.takeWhile isFloatChar).length ≤ (digits.takeWhile isWholeChar).length
  (if looksWhole then readWhole? cs else none).or (readFloat? cs)

/-! ### Values -/

/-- An entry as the name of a member. -/
def memberName? : Entry → Option String
  | .text s => some s
  | _ => none

/-- A value at the front of a text that no other value may stand in. -/
def readScalar? (cs : List Char) : Option (Entry × List Char) :=
  match cs with
  | '(' :: ')' :: rest => some (.nothing, rest)
  | '"' :: _ => (readString? cs).map fun (s, rest) => (.text s, rest)
  | '\'' :: _ => (readChar? cs).map fun (c, rest) => (.text (String.ofList [c]), rest)
  | 'r' :: '"' :: _ => (readString? cs).map fun (s, rest) => (.text s, rest)
  | 'r' :: '#' :: '"' :: _ => (readString? cs).map fun (s, rest) => (.text s, rest)
  | 'r' :: '#' :: '#' :: _ => (readString? cs).map fun (s, rest) => (.text s, rest)
  | c :: _ => if c.isDigit || c == '+' || c == '-' || c == '.' then readNumber? cs else none
  | [] => none

/-- A word that stands for a value at the front of a text. -/
def readWord? (cs : List Char) : Option (Entry × List Char) :=
  let words : List (String × Entry) :=
    [("true", .bool true), ("false", .bool false), ("None", .nothing), ("inf", .float (1.0 / 0.0)),
     ("-inf", .float (-1.0 / 0.0)), ("NaN", .float (0.0 / 0.0))]
  words.findSome? fun (word, e) => (skipWord? word cs).map (e, ·)

/-- The text after a name and the colon that follows it. -/
def readField? (cs : List Char) : Option (List Char × List Char) := do
  let (name, rest) ← readName? cs
  match ← comments.skip? rest with
  | ':' :: rest => some (name, ← comments.skip? rest)
  | _ => none

mutual

/-- A value at the front of a text, with what follows it and the blanks after it. Each call may use
one unit of `fuel` less than its caller; `levels` more values may be nested. -/
def readValue? : (fuel : Nat) → (levels : Nat) → List Char → Option (Entry × List Char)
  | 0, _, _ => none
  | fuel + 1, levels, cs => do
    let (e, rest) ←
      match readWord? cs, skipWord? "Some" cs with
      | some answer, _ => some answer
      | none, some rest => do readOption? fuel levels (← comments.skip? rest)
      | none, none =>
        match readScalar? cs, cs with
        | some answer, _ => some answer
        | none, '[' :: rest =>
          if levels = 0 then none
          else do
            let (es, rest) ← readItems? fuel (levels - 1) ']' (← comments.skip? rest)
            some (.list es, rest)
        | none, '\x7b' :: rest =>
          if levels = 0 then none
          else do
            let (es, rest) ← readMembers? fuel (levels - 1) (← comments.skip? rest)
            some (.table (Entry.distinct es), rest)
        | none, '(' :: _ => readParts? fuel levels cs
        | none, _ => do
          let (_, rest) ← readName? cs
          match ← comments.skip? rest with
          | '(' :: rest => readParts? fuel levels ('(' :: rest)
          | rest => some (.nothing, rest)
    return (e, ← comments.skip? rest)

/-- What may be missing, after the word that says that it is not. -/
def readOption? : (fuel : Nat) → (levels : Nat) → List Char → Option (Entry × List Char)
  | 0, _, _ => none
  | fuel + 1, levels, cs => do
    match cs with
    | '(' :: rest =>
      if levels = 0 then none
      else
        let (e, rest) ← readValue? fuel (levels - 1) (← comments.skip? rest)
        match rest with
        | ')' :: rest => some (e, rest)
        | ',' :: rest =>
          match ← comments.skip? rest with
          | ')' :: rest => some (e, rest)
          | _ => none
        | _ => none
    | _ => none

/-- A structure, whose first part is named, or a tuple. -/
def readParts? : (fuel : Nat) → (levels : Nat) → List Char → Option (Entry × List Char)
  | 0, _, _ => none
  | fuel + 1, levels, cs => do
    let rest ← comments.skip? (cs.drop 1)
    if levels = 0 then none
    else if (readField? rest).isSome then
      let (es, rest) ← readFields? fuel (levels - 1) rest
      some (.table (Entry.distinct es), rest)
    else
      let (es, rest) ← readItems? fuel (levels - 1) ')' rest
      some (.list es, rest)

/-- The items of a list or a tuple up to its closing mark. -/
def readItems? : (fuel : Nat) → (levels : Nat) → (closing : Char) → List Char →
    Option (List Entry × List Char)
  | 0, _, _, _ => none
  | fuel + 1, levels, closing, cs => do
    if cs.head? == some closing then some ([], cs.drop 1)
    else
      let (e, rest) ← readValue? fuel levels cs
      match rest with
      | ',' :: rest =>
        let (es, rest) ← readItems? fuel levels closing (← comments.skip? rest)
        some (e :: es, rest)
      | rest => if rest.head? == some closing then some ([e], rest.drop 1) else none

/-- The fields of a structure up to its closing parenthesis. -/
def readFields? : (fuel : Nat) → (levels : Nat) → List Char →
    Option (List (String × Entry) × List Char)
  | 0, _, _ => none
  | fuel + 1, levels, cs => do
    match cs with
    | ')' :: rest => some ([], rest)
    | cs =>
      let (name, rest) ← readField? cs
      let (e, rest) ← readValue? fuel levels rest
      match rest with
      | ')' :: rest => some ([(String.ofList name, e)], rest)
      | ',' :: rest =>
        let (es, rest) ← readFields? fuel levels (← comments.skip? rest)
        some ((String.ofList name, e) :: es, rest)
      | _ => none

/-- The members of a map up to its closing brace. Their names are texts. -/
def readMembers? : (fuel : Nat) → (levels : Nat) → List Char →
    Option (List (String × Entry) × List Char)
  | 0, _, _ => none
  | fuel + 1, levels, cs => do
    match cs with
    | '\x7d' :: rest => some ([], rest)
    | cs =>
      let (name, rest) ← readValue? fuel levels cs
      let name ← memberName? name
      match rest with
      | ':' :: rest =>
        let (e, rest) ← readValue? fuel levels (← comments.skip? rest)
        match rest with
        | '\x7d' :: rest => some ([(name, e)], rest)
        | ',' :: rest =>
          let (es, rest) ← readMembers? fuel levels (← comments.skip? rest)
          some ((name, e) :: es, rest)
        | _ => none
      | _ => none

end

/-! ### Texts -/

/-- The extensions that a text may ask for. They change nothing here. -/
def extensions : List String :=
  ["implicit_some", "unwrap_newtypes", "unwrap_variant_newtypes"]

/-- The text after marks at its front, between which blanks may stand. -/
def skipMarks? : List String → List Char → Option (List Char)
  | [], cs => some cs
  | mark :: marks, cs =>
    if mark.toList.isPrefixOf cs then
      ((comments.skip? (cs.drop mark.length)).bind (skipMarks? marks))
    else none

/-- The text after the names of extensions. Each name takes up a character, so that the length of
the text bounds `fuel`. -/
def skipExtensions? : (fuel : Nat) → List Char → Option (List Char)
  | 0, _ => none
  | fuel + 1, cs => do
    let (name, rest) ← readName? cs
    if String.ofList name ∉ extensions then none
    match ← comments.skip? rest with
    | ',' :: rest =>
      match ← comments.skip? rest with
      | ')' :: rest => some (')' :: rest)
      | rest => skipExtensions? fuel rest
    | rest => some rest

/-- The text after the lines at its front that ask for extensions. -/
def skipAttributes? : (fuel : Nat) → List Char → Option (List Char)
  | 0, _ => none
  | fuel + 1, cs =>
    if cs.head? == some '#' then do
      let rest ← skipMarks? ["#", "!", "[", "enable", "("] cs
      let rest ← skipMarks? [")", "]"] (← skipExtensions? rest.length rest)
      skipAttributes? fuel rest
    else some cs

/-- How many values may be nested. -/
def maxDepth : Nat := 128

/-- The entries of a text. Of three calls of the readers one inside the other at least one consumes
a character, so the length of the text bounds their nesting. -/
def read? (text : String) : Option (List (String × Entry)) := do
  let cs ← comments.skip? text.toList
  let cs ← skipAttributes? (cs.length + 1) cs
  match ← readValue? (3 * cs.length + 1) maxDepth cs with
  | (.table es, []) => some es
  | _ => none

end Cohort.CommandLine.Ron
