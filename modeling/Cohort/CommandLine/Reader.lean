import Cohort.CommandLine.Numeral
set_option autoImplicit false

/-!
# Parts of texts

Readers of settings files take a part off the front of a text and return it with what they leave.

## Main definitions

* `Cohort.CommandLine.Reader.cons`, `Cohort.CommandLine.Reader.append` — what a reader took, with
  more in front.
* `Cohort.CommandLine.Reader.codePoint?` — the character with a code point.
-/

namespace Cohort.CommandLine.Reader

variable {α β : Type}

/-- What a reader took, after one thing more. -/
def cons (a : α) (taken : Option (List α × β)) : Option (List α × β) :=
  taken.map fun (rest, after) => (a :: rest, after)

/-- What a reader took, after others. -/
def append (as : List α) (taken : Option (List α × β)) : Option (List α × β) :=
  taken.map fun (rest, after) => (as ++ rest, after)

/-- The character with a code point in hexadecimal digits. -/
def codePoint? (digits : List Char) : Option Char := do
  let n ← Numeral.ofDigits? 16 digits
  if n.isValidChar then some (Char.ofNat n) else none

end Cohort.CommandLine.Reader
