import Cohort.Formula.Token
set_option autoImplicit false

/-!
# Lexemes of formulas

A formula is cut from left to right into lexemes with blanks between them. Each lexeme is the
longest one at its place; a character that starts none is a lexeme without a token. So is a quote
that is never closed, together with the part of the text that could have been inside.

## Main definitions

* `Cohort.Formula.Lexeme` — a piece of a formula at its place.
* `Cohort.Formula.lexemes` — the lexemes of a formula.
-/

namespace Cohort.Formula

/-- A piece of a formula. -/
structure Lexeme where
  /-- The number of bytes before it. -/
  start : Nat
  /-- Its characters. -/
  text : List Char
  /-- What it spells, unless it is invalid. -/
  token? : Option Token
deriving DecidableEq

/-- The number of bytes of characters. -/
def byteLength : List Char → Nat
  | [] => 0
  | c :: cs => c.utf8Size + byteLength cs

/-- The number of bytes up to the end of a lexeme. -/
def Lexeme.stop (l : Lexeme) : Nat :=
  l.start + byteLength l.text

/-- Whether a character separates lexemes. -/
def isBlank (c : Char) : Bool :=
  c == ' ' || c == '\t' || c == '\r' || c == '\n' || c == '\x0c'

/-! ### Lengths of lexemes -/

/-- The length of the digits at the front, with a fraction if digits follow the point. -/
def numberLength (cs : List Char) : Nat :=
  let whole := (cs.takeWhile Char.isDigit).length
  match cs.drop whole with
  | '.' :: rest =>
    let fraction := (rest.takeWhile Char.isDigit).length
    if fraction = 0 then whole else whole + 1 + fraction
  | _ => whole

/-- The length of a number with its unit, if it has one. -/
def quantityLength (cs : List Char) : Nat :=
  let n := numberLength cs
  match cs.drop n with
  | c :: _ => if isUnit c then n + 1 else n
  | [] => n

/-- The length of the rest of a name: a dot belongs to it if a part follows. -/
def nameLength : List Char → Nat
  | [] => 0
  | c :: cs =>
    if isNameChar c then nameLength cs + 1
    else if c == '.' then
      match cs with
      | d :: _ => if isNameStart d then nameLength cs + 1 else 0
      | [] => 0
    else 0

/-- The length of the rest of a text up to and with its closing quote, and whether there is one.
Without one, a backslash that escapes nothing, or a line break, ends the length. -/
def textLength (quote : Char) : List Char → Nat × Bool
  | [] => (0, false)
  | '\\' :: c :: cs =>
    if c == '\n' then (0, false)
    else
      let (n, closed) := textLength quote cs
      (n + 2, closed)
  | ['\\'] => (0, false)
  | c :: cs =>
    if c == quote then (1, true)
    else
      let (n, closed) := textLength quote cs
      (n + 1, closed)

/-- The length of the rest of a sign: an equals sign may follow those of comparisons. -/
def signLength (c : Char) (cs : List Char) : Nat :=
  match cs with
  | '=' :: _ => if c == '=' || c == '!' || c == '<' || c == '>' then 1 else 0
  | _ => 0

/-- The number of characters that belong to the lexeme of a character, after it. -/
def tailLength (c : Char) (cs : List Char) : Nat :=
  if c.isDigit then quantityLength (c :: cs) - 1
  else if isNameStart c then nameLength cs
  else if isQuote c then (textLength c cs).1
  else signLength c cs

/-- What a lexeme spells, given its first character and the others. -/
def tokenOf? (c : Char) (cs : List Char) : Option Token :=
  if c.isDigit then some (.ofDigits (c :: cs))
  else if isNameStart c then some (.ident (String.ofList (c :: cs)))
  else if isQuote c then if (textLength c cs).2 then some (.ofQuoted cs) else none
  else Token.ofSigns? (c :: cs)

/-- The lexemes of the part of a formula after `start` bytes. -/
def lexemesFrom (start : Nat) (cs : List Char) : List Lexeme :=
  match cs with
  | [] => []
  | c :: cs =>
    if isBlank c then lexemesFrom (start + c.utf8Size) cs
    else
      let tail := cs.take (tailLength c cs)
      ⟨start, c :: tail, tokenOf? c tail⟩ ::
        lexemesFrom (start + byteLength (c :: tail)) (cs.drop (tailLength c cs))
termination_by cs.length
decreasing_by
  · simp
  · simp only [List.length_drop, List.length_cons]; omega

/-- The lexemes of a formula. -/
def lexemes (source : String) : List Lexeme :=
  lexemesFrom 0 source.toList

end Cohort.Formula
