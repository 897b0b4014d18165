import Cohort.Decimal.Layout
import Cohort.Decimal.Reading
set_option autoImplicit false

/-!
# Tokens of formulas

## Main definitions

* `Cohort.Formula.Token` — a word of the formula language.
* `Cohort.Formula.Token.ofDigits`, `Cohort.Formula.Token.ofQuoted`, `Cohort.Formula.Token.ofSigns?`
  — the tokens of lexemes by their first character.
* `Cohort.Formula.Token.describe` — a token in a message.
-/

namespace Cohort.Formula

/-- A word of the formula language. -/
inductive Token where
  | openParen
  | closeParen
  | comma
  | plus
  | minus
  | star
  | slash
  | equal
  | notEqual
  | atLeast
  | atMost
  | greater
  | less
  /-- A length of time in seconds. -/
  | duration (seconds : Float)
  /-- A number. -/
  | number (value : Float)
  /-- A text without its quotes. -/
  | text (value : String)
  /-- A dotted name. -/
  | ident (name : String)
deriving DecidableEq

/-- The seconds of the unit that a letter stands for. -/
def secondsOfUnit? : Char → Option Float
  | 's' => some 1.0
  | 'm' => some 60.0
  | 'h' => some 3600.0
  | 'd' => some 86400.0
  | 'w' => some 604800.0
  | _ => none

/-- Whether a letter stands for a unit of time. -/
def isUnit (c : Char) : Bool :=
  (secondsOfUnit? c).isSome

/-- Whether a character can start a name or a part of it after a dot. -/
def isNameStart (c : Char) : Bool :=
  c.isAlpha || c == '_'

/-- Whether a character can stand inside a name. -/
def isNameChar (c : Char) : Bool :=
  c.isAlphanum || c == '_'

/-- Whether a character opens and closes a text. -/
def isQuote (c : Char) : Bool :=
  c == '"' || c == '\''

/-- The characters of a text inside its quotes: a backslash makes `n` a line break and `t` a tab,
and any other character stand for itself. -/
def unescape : List Char → List Char
  | '\\' :: 'n' :: cs => '\n' :: unescape cs
  | '\\' :: 't' :: cs => '\t' :: unescape cs
  | '\\' :: c :: cs => c :: unescape cs
  | c :: cs => c :: unescape cs
  | [] => []

/-- The float that digits with an optional fraction name. -/
def floatOfDigits (cs : List Char) : Float :=
  let (whole, rest) := Decimal.splitDigits cs
  (Decimal.Literal.mk false whole (Decimal.splitFraction rest).1 0).toFloat

namespace Token

/-- The token of a lexeme that starts with a digit: a length of time if a unit ends it, otherwise
a number. -/
def ofDigits (cs : List Char) : Token :=
  match cs.getLast?.bind secondsOfUnit? with
  | some seconds => .duration (floatOfDigits cs.dropLast * seconds)
  | none => .number (floatOfDigits cs)

/-- The token of a lexeme that starts with a quote, given the characters after the quote. -/
def ofQuoted (cs : List Char) : Token :=
  .text (String.ofList (unescape cs.dropLast))

/-- The token of a lexeme made of signs. -/
def ofSigns? : List Char → Option Token
  | ['('] => some .openParen
  | [')'] => some .closeParen
  | [','] => some .comma
  | ['+'] => some .plus
  | ['-'] => some .minus
  | ['*'] => some .star
  | ['/'] => some .slash
  | ['='] => some .equal
  | ['=', '='] => some .equal
  | ['!', '='] => some .notEqual
  | ['>', '='] => some .atLeast
  | ['<', '='] => some .atMost
  | ['>'] => some .greater
  | ['<'] => some .less
  | _ => none

/-- Numbers in messages: never with an exponent, and without a point if they are whole. -/
def numberLayout : Decimal.Layout :=
  ⟨.up, none, false⟩

/-- A token in a message. -/
def describe : Token → String
  | .openParen => "'('"
  | .closeParen => "')'"
  | .comma => "','"
  | .plus => "'+'"
  | .minus => "'-'"
  | .star => "'*'"
  | .slash => "'/'"
  | .equal => "'=='"
  | .notEqual => "'!='"
  | .atLeast => "'>='"
  | .atMost => "'<='"
  | .greater => "'>'"
  | .less => "'<'"
  | .duration seconds => "duration " ++ numberLayout.write seconds ++ "s"
  | .number value => "number " ++ numberLayout.write value
  | .text value => "string \"" ++ value ++ "\""
  | .ident name => "identifier '" ++ name ++ "'"

end Token

end Cohort.Formula
