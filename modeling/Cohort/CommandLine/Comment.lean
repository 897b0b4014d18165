set_option autoImplicit false

/-!
# Blanks and comments

Between the parts of a text may stand blanks and comments: from two slashes to the end of the line,
or from a slash and a star to a star and a slash.

## Main definitions

* `Cohort.CommandLine.CommentStyle` — what a format takes for blanks and comments.
* `Cohort.CommandLine.CommentStyle.skip?` — a text after the blanks and comments at its front.
-/

namespace Cohort.CommandLine

/-- What a format takes for blanks and comments. -/
structure CommentStyle where
  /-- Whether a character is a blank. -/
  isBlank : Char → Bool
  /-- Whether a character ends a line. -/
  isBreak : Char → Bool
  /-- Whether comments may stand inside a comment. -/
  nested : Bool

namespace CommentStyle

/-- The text after the end of a comment of which `depth` are open. -/
def close? (style : CommentStyle) : (depth : Nat) → List Char → Option (List Char)
  | 0, cs => some cs
  | _ + 1, [] => none
  | depth + 1, '*' :: '/' :: cs => style.close? depth cs
  | depth + 1, '/' :: '*' :: cs =>
    if style.nested then style.close? (depth + 2) cs else style.close? (depth + 1) ('*' :: cs)
  | depth + 1, _ :: cs => style.close? (depth + 1) cs

/-- A text after the blanks and comments at its front. The length of the text bounds `fuel`, for
each call but the last drops a character. -/
def skipWithin? (style : CommentStyle) : (fuel : Nat) → List Char → Option (List Char)
  | 0, cs => if cs.isEmpty then some [] else none
  | fuel + 1, cs =>
    match cs with
    | '/' :: '/' :: cs => style.skipWithin? fuel (cs.dropWhile fun c => !style.isBreak c)
    | '/' :: '*' :: cs => (style.close? 1 cs).bind (style.skipWithin? fuel)
    | c :: cs => if style.isBlank c then style.skipWithin? fuel cs else some (c :: cs)
    | [] => some []

/-- A text after the blanks and comments at its front. A comment that is not closed is refused. -/
def skip? (style : CommentStyle) (cs : List Char) : Option (List Char) :=
  style.skipWithin? cs.length cs

end CommentStyle

end Cohort.CommandLine
