import Cohort.Text.CaseTable
set_option autoImplicit false

/-!
# Lower case

Text constraints compare texts in lower case. The mapping is that of Unicode: it may lengthen a
text (`İ` becomes two characters) and it depends on the neighbours of a capital sigma, which is
`ς` at the end of a word and `σ` elsewhere.

## Main definitions

* `Cohort.Text.lowercaseChar` — the mapping of one character, sigma aside.
* `Cohort.Text.lowercase` — the mapping of a text.
-/

namespace Cohort.Text

/-- Whether a code point lies in one of the ranges. -/
def inRanges (ranges : List (Nat × Nat)) (n : Nat) : Bool :=
  ranges.any fun r => r.1 ≤ n && n ≤ r.2

/-- The property `Cased`: letters that have or are a case form. -/
def isCased (c : Char) : Bool :=
  inRanges casedRanges c.toNat

/-- The property `Case_Ignorable`: marks and signs that do not end a word. -/
def isCaseIgnorable (c : Char) : Bool :=
  inRanges caseIgnorableRanges c.toNat

/-- Whether the run holds the code point as one of its capitals. -/
def CaseRun.contains (run : CaseRun) (n : Nat) : Bool :=
  run.first ≤ n && n ≤ run.last && (n - run.first) % run.step == 0

/-- The small letters of a character, itself if it has none. Only `İ` has two. -/
def lowercaseChar (c : Char) : List Char :=
  if c.toNat < 0x80 then [c.toLower]
  else if c == 'İ' then ['i', '\u0307']
  else match lowercaseRuns.find? (·.contains c.toNat) with
    | some run => [Char.ofNat (c.toNat + run.shift).toNat]
    | none => [c]

/-- Whether the first character that is not case-ignorable is cased. -/
def meetsCased (cs : List Char) : Bool :=
  match cs.dropWhile isCaseIgnorable with
  | c :: _ => isCased c
  | [] => false

/-- Lower case of the characters `cs` of a text whose part `before`, in reverse, precedes them:
a capital sigma with a letter before it and none after it is final. -/
def lowercaseFrom : (before cs : List Char) → List Char
  | _, [] => []
  | before, c :: cs =>
    let small :=
      if c == 'Σ' then
        if meetsCased before && !meetsCased cs then ['ς'] else ['σ']
      else lowercaseChar c
    small ++ lowercaseFrom (c :: before) cs

/-- A text in lower case. -/
def lowercase (s : String) : String :=
  String.ofList (lowercaseFrom [] s.toList)

end Cohort.Text
