import Mathlib.Tactic.Lemma
import Cohort.Text.Lowercase
set_option relaxedAutoImplicit false
set_option autoImplicit false

/-!
# Lower case within a text

Characters have the same lower case wherever they stand, but for the capital sigma, which is `ς` at
the end of a word and `σ` elsewhere. So the lower case of a part of a text is the lower case of the
part alone if and only if each of its capital sigmas ends a word in the text when it ends one in the
part, and the other way round.

## Main definitions

* `Cohort.Text.EndsWord` — a capital sigma in this place ends a word.
* `Cohort.Text.lowercaseBetween` — the lower case of a part of a text.
* `Cohort.Text.KeepsSigmas` — no capital sigma changes its form within a text.

## Main results

* `Cohort.Text.lowercaseBetween_append` — the lower case of a text is made of those of its parts.
* `Cohort.Text.lowercaseBetween_eq_iff` — the lower case of a part is that of the part alone.
-/

namespace Cohort.Text

variable {before before' after after' cs ds : List Char}

/-- Between these characters a capital sigma stands at the end of a word: a letter comes before it
and none comes after it. -/
def EndsWord (before after : List Char) : Prop :=
  meetsCased before.reverse = true ∧ meetsCased after = false

/-- Whether a sigma stands at the end of a word can be decided. -/
instance (before after : List Char) : Decidable (EndsWord before after) :=
  inferInstanceAs (Decidable (_ ∧ _))

/-- The lower case of a character between others. -/
def lowercaseAt (before : List Char) (c : Char) (after : List Char) : List Char :=
  if c = 'Σ' then if EndsWord before after then ['ς'] else ['σ'] else lowercaseChar c

/-- The lower case of the characters `cs` of a text in which others come before and after them. -/
def lowercaseBetween (before : List Char) : (cs after : List Char) → List Char
  | [], _ => []
  | c :: cs, after =>
    lowercaseAt before c (cs ++ after) ++ lowercaseBetween (before ++ [c]) cs after

/-- The lower case of a text is that of its characters with nothing around them.

**Proof sketch.** Induction on the characters, for any characters before them. Only a capital sigma
depends on what is around it, and it ends a word by the same test. -/
lemma lowercaseFrom_reverse (before cs : List Char) :
    lowercaseFrom before.reverse cs = lowercaseBetween before cs [] := by
  induction cs generalizing before with
  | nil => rfl
  | cons c cs ih =>
    have hnext := ih (before ++ [c])
    rw [List.reverse_append, List.reverse_singleton, List.singleton_append] at hnext
    rw [lowercaseFrom, lowercaseBetween, hnext, List.append_nil]
    congr 1
    by_cases hc : c = 'Σ'
    · by_cases h : EndsWord before cs
      · simp [lowercaseAt, hc, h, h.1, h.2]
      · have hnot : (meetsCased before.reverse && !meetsCased cs) = false := by
          simpa [EndsWord] using h
        simp [lowercaseAt, hc, h, hnot]
    · simp [lowercaseAt, hc]

/-- A text is put into lower case with nothing before it and nothing after it. -/
lemma toList_lowercase (s : String) : (lowercase s).toList = lowercaseBetween [] s.toList [] := by
  rw [lowercase, String.toList_ofList]
  exact lowercaseFrom_reverse [] s.toList

/-- The lower case of characters is made of those of their parts, each among the others. -/
theorem lowercaseBetween_append (before cs ds after : List Char) :
    lowercaseBetween before (cs ++ ds) after =
      lowercaseBetween before cs (ds ++ after) ++ lowercaseBetween (before ++ cs) ds after := by
  induction cs generalizing before with
  | nil => simp [lowercaseBetween]
  | cons c cs ih => simp [lowercaseBetween, ih]

/-- A character has a lower case of the same length everywhere. -/
lemma length_lowercaseAt (before before' after after' : List Char) (c : Char) :
    (lowercaseAt before c after).length = (lowercaseAt before' c after').length := by
  unfold lowercaseAt
  split
  case isTrue => split <;> split <;> rfl
  case isFalse => rfl

/-- Characters have a lower case of the same length everywhere. -/
lemma length_lowercaseBetween (before before' cs after after' : List Char) :
    (lowercaseBetween before cs after).length = (lowercaseBetween before' cs after').length := by
  induction cs generalizing before before' with
  | nil => rfl
  | cons c cs ih =>
    rw [lowercaseBetween, lowercaseBetween, List.length_append, List.length_append,
      length_lowercaseAt before before' (cs ++ after) (cs ++ after'), ih]

/-- A character has the same lower case in two places unless it is a capital sigma that ends a word
in one of them only. -/
lemma lowercaseAt_eq_iff {c : Char} :
    lowercaseAt before c after = lowercaseAt before' c after' ↔
      (c = 'Σ' → (EndsWord before after ↔ EndsWord before' after')) := by
  by_cases hc : c = 'Σ'
  · by_cases h : EndsWord before after <;> by_cases h' : EndsWord before' after' <;>
      simp [lowercaseAt, hc, h, h']
  · simp [lowercaseAt, hc]

/-- Characters have the same lower case in two places if and only if each capital sigma among them
ends a word in both places or in neither of them.

**Proof sketch.** Induction on the characters. The lower case of a character has the same length
anywhere, so the parts are compared one by one, and only a capital sigma makes a difference. -/
theorem lowercaseBetween_eq_iff :
    lowercaseBetween before cs after = lowercaseBetween before' cs after' ↔
      ∀ l r, cs = l ++ 'Σ' :: r →
        (EndsWord (before ++ l) (r ++ after) ↔ EndsWord (before' ++ l) (r ++ after')) := by
  induction cs generalizing before before' with
  | nil => simp [lowercaseBetween]
  | cons c cs ih =>
    have hparts : lowercaseBetween before (c :: cs) after =
        lowercaseBetween before' (c :: cs) after' ↔
          lowercaseAt before c (cs ++ after) = lowercaseAt before' c (cs ++ after') ∧
            lowercaseBetween (before ++ [c]) cs after =
              lowercaseBetween (before' ++ [c]) cs after' := by
      rw [lowercaseBetween, lowercaseBetween]
      constructor
      · intro h
        -- the first characters have equally long lower cases, so the rests start at the same place
        exact List.append_inj h (length_lowercaseAt ..)
      · rintro ⟨hfirst, hrest⟩
        rw [hfirst, hrest]
    rw [hparts, lowercaseAt_eq_iff, ih]
    constructor
    · rintro ⟨hfirst, hrest⟩ l r hlr
      cases l with
      | nil =>
        obtain ⟨rfl, rfl⟩ := List.cons.inj hlr
        simpa using hfirst rfl
      | cons d l =>
        obtain ⟨rfl, rfl⟩ := List.cons.inj hlr
        simpa using hrest l r rfl
    · intro h
      constructor
      · rintro rfl
        simpa using h [] cs rfl
      · rintro l r rfl
        simpa using h (c :: l) r rfl

/-- Among other characters each capital sigma ends a word if and only if it does so without
them. -/
def KeepsSigmas (before cs after : List Char) : Prop :=
  ∀ l r, cs = l ++ 'Σ' :: r → (EndsWord (before ++ l) (r ++ after) ↔ EndsWord l r)

/-- A part of a text has the same lower case alone if and only if it keeps its capital sigmas. -/
lemma lowercaseBetween_eq_alone_iff :
    lowercaseBetween before cs after = lowercaseBetween [] cs [] ↔
      KeepsSigmas before cs after := by
  simp only [lowercaseBetween_eq_iff, List.nil_append, List.append_nil, KeepsSigmas]

/-- Without other characters nothing changes. -/
lemma keepsSigmas_alone : KeepsSigmas [] cs [] := by
  intro l r _
  rw [List.nil_append, List.append_nil]

/-- Where there is no capital sigma nothing changes. -/
lemma keepsSigmas_of_notMem (h : 'Σ' ∉ cs) : KeepsSigmas before cs after := by
  rintro l r rfl
  exact absurd (List.mem_append_right l List.mem_cons_self) h

end Cohort.Text
