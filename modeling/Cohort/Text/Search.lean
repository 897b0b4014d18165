set_option autoImplicit false

/-!
# Finding a text in another

## Main definitions

* `Cohort.Text.startsWith`, `Cohort.Text.endsWith`, `Cohort.Text.occursIn`.
-/

namespace Cohort.Text

/-- Whether a text begins with another. -/
def startsWith (needle text : String) : Bool :=
  needle.toList.isPrefixOf text.toList

/-- Whether a text ends with another. -/
def endsWith (needle text : String) : Bool :=
  needle.toList.isSuffixOf text.toList

/-- Whether characters stand side by side somewhere in others. -/
def isInfix (needle : List Char) : List Char → Bool
  | [] => needle.isEmpty
  | c :: cs => needle.isPrefixOf (c :: cs) || isInfix needle cs

/-- Whether a text stands somewhere in another. -/
def occursIn (needle text : String) : Bool :=
  isInfix needle.toList text.toList

end Cohort.Text
