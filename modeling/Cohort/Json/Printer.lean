import Cohort.Json.Basic
set_option autoImplicit false

/-!
# Writing JSON

Values are written without blanks where they stand inside other text, and indented by two spaces
where they are the output. In strings only the quote, the backslash and the control characters
below the space are escaped.

## Main definitions

* `Cohort.Json.quote` — a text as a JSON string.
* `Cohort.Json.compress` — a value without blanks.
* `Cohort.Json.pretty` — a value over several lines.
-/

namespace Cohort.Json

/-- The digits of a code point below 256 as two small hexadecimal digits. -/
def hexPair (n : Nat) : List Char :=
  [Nat.digitChar (n / 16 % 16), Nat.digitChar (n % 16)]

/-- A character inside a JSON string. -/
def escape (c : Char) : List Char :=
  match c with
  | '"' => ['\\', '"']
  | '\\' => ['\\', '\\']
  | '\x08' => ['\\', 'b']
  | '\x0c' => ['\\', 'f']
  | '\n' => ['\\', 'n']
  | '\r' => ['\\', 'r']
  | '\t' => ['\\', 't']
  | c => if c.toNat < 0x20 then ['\\', 'u', '0', '0'] ++ hexPair c.toNat else [c]

/-- A text as a JSON string. -/
def quote (s : String) : String :=
  String.ofList ('"' :: (s.toList.flatMap escape ++ ['"']))

mutual

/-- A value without blanks. -/
def compress : Json → String
  | .null => "null"
  | .bool b => if b then "true" else "false"
  | .number n => n.write
  | .string s => quote s
  | .array items => "[" ++ compressItems items ++ "]"
  | .object fields => "\x7b" ++ compressFields fields ++ "\x7d"

/-- Values with commas between them. -/
def compressItems : List Json → String
  | [] => ""
  | [item] => compress item
  | item :: next :: rest => compress item ++ "," ++ compressItems (next :: rest)

/-- Members with commas between them. -/
def compressFields : List (String × Json) → String
  | [] => ""
  | [(name, value)] => quote name ++ ":" ++ compress value
  | (name, value) :: next :: rest =>
    quote name ++ ":" ++ compress value ++ "," ++ compressFields (next :: rest)

end

/-- A line break with the indentation of a level: two spaces each. -/
def lineBreak (level : Nat) : String :=
  String.ofList ('\n' :: List.replicate (2 * level) ' ')

mutual

/-- A value over several lines, inside `level` others. Only empty lists and objects stay on one
line. -/
def prettyAt (level : Nat) : Json → String
  | .null => "null"
  | .bool b => if b then "true" else "false"
  | .number n => n.write
  | .string s => quote s
  | .array [] => "[]"
  | .array (item :: rest) =>
    "[" ++ prettyItems (level + 1) (item :: rest) ++ lineBreak level ++ "]"
  | .object [] => "\x7b\x7d"
  | .object (field :: rest) =>
    "\x7b" ++ prettyFields (level + 1) (field :: rest) ++ lineBreak level ++ "\x7d"

/-- Values on a line each. -/
def prettyItems (level : Nat) : List Json → String
  | [] => ""
  | [item] => lineBreak level ++ prettyAt level item
  | item :: next :: rest =>
    lineBreak level ++ prettyAt level item ++ "," ++ prettyItems level (next :: rest)

/-- Members on a line each. -/
def prettyFields (level : Nat) : List (String × Json) → String
  | [] => ""
  | [(name, value)] => lineBreak level ++ quote name ++ ": " ++ prettyAt level value
  | (name, value) :: next :: rest =>
    lineBreak level ++ quote name ++ ": " ++ prettyAt level value ++ "," ++
      prettyFields level (next :: rest)

end

/-- A value over several lines. -/
def pretty (value : Json) : String :=
  prettyAt 0 value

end Cohort.Json
