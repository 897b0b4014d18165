set_option autoImplicit false

/-!
# Blank characters and trimming

Names, operators and numbers typed by people are read with the blanks around them removed.
Blank is the `White_Space` property of Unicode, which goes beyond the ASCII blanks.

## Main definitions

* `Cohort.Text.isBlank` — the `White_Space` property.
* `Cohort.Text.trimLeft`, `Cohort.Text.trim` — a text without the blanks at its ends.
-/

namespace Cohort.Text

/-- Whether a character has the `White_Space` property: twenty-five code points. -/
def isBlank (c : Char) : Bool :=
  let n := c.toNat
  (9 ≤ n && n ≤ 13) || n == 0x20 || n == 0x85 || n == 0xA0 || n == 0x1680 ||
    (0x2000 ≤ n && n ≤ 0x200A) || n == 0x2028 || n == 0x2029 || n == 0x202F || n == 0x205F ||
    n == 0x3000

/-- The characters from the first one on that is not blank. -/
def trimLeft (cs : List Char) : List Char :=
  cs.dropWhile isBlank

/-- The characters between the blanks at both ends. -/
def trimBoth (cs : List Char) : List Char :=
  (trimLeft (trimLeft cs).reverse).reverse

/-- A text without the blanks at its ends. -/
def trim (s : String) : String :=
  String.ofList (trimBoth s.toList)

/-- A keyword as it is compared: trimmed, with the ASCII capitals made small. -/
def keyword (s : String) : String :=
  (trim s).map Char.toLower

end Cohort.Text
