import Mathlib.Computability.Language
import Mathlib.Tactic.Lemma
import Cohort.Formula.Token
set_option relaxedAutoImplicit false
set_option autoImplicit false

/-!
# The words of tokens

What a token may look like is a language: digits, perhaps with a fraction and a unit; names with
dots between their parts; texts in quotes, with a backslash before what it escapes; and the signs.
Every word starts with a character that tells the kind of its token.

## Main definitions

* `Cohort.Formula.numerals`, `Cohort.Formula.quantities`, `Cohort.Formula.names`,
  `Cohort.Formula.quoted` — the languages of the kinds of tokens.
* `Cohort.Formula.Token.words` — the words that a token may be the meaning of.
* `Cohort.Formula.Shape` — what words look like.

## Main results

* `Cohort.Formula.mem_numerals`, `Cohort.Formula.mem_quantities`, `Cohort.Formula.cons_mem_names`,
  `Cohort.Formula.mem_quoted` — the words of these languages.
* `Cohort.Formula.Token.exists_cons_of_mem_words` — how words start.
-/

namespace Cohort.Formula

open scoped Computability

/-! ### Languages -/

/-- The words of one character of a class. -/
def oneOf (p : Char → Prop) : Language Char :=
  {w | ∃ c, p c ∧ w = [c]}

/-- One or more digits. -/
def digits : Language Char :=
  oneOf (Char.isDigit · = true) * (oneOf (Char.isDigit · = true))∗

/-- Digits, perhaps with a point and more digits. -/
def numerals : Language Char :=
  digits * (1 + {['.']} * digits)

/-- A numeral with a unit of time: seconds, minutes, hours, days or weeks. -/
def quantities : Language Char :=
  numerals * oneOf (· ∈ ['s', 'm', 'h', 'd', 'w'])

/-- A part of a name: a letter or an underscore, and more of these or digits. -/
def nameParts : Language Char :=
  oneOf (isNameStart · = true) * (oneOf (isNameChar · = true))∗

/-- The parts of a name with dots between them. -/
def names : Language Char :=
  nameParts * ({['.']} * nameParts)∗

/-- What may stand between quotes: characters other than the quote and the backslash, and a
backslash with any character after it but a line break. -/
def quotable (quote : Char) : Language Char :=
  (oneOf (fun c => c ≠ quote ∧ c ≠ '\\') + {['\\']} * oneOf (· ≠ '\n'))∗

/-- A text between quotes. -/
def quoted (quote : Char) : Language Char :=
  {[quote]} * quotable quote * {[quote]}

namespace Token

/-- The words that a token may be the meaning of. -/
def words : Token → Language Char
  | .openParen => {['(']}
  | .closeParen => {[')']}
  | .comma => {[',']}
  | .plus => {['+']}
  | .minus => {['-']}
  | .star => {['*']}
  | .slash => {['/']}
  | .equal => {['='], ['=', '=']}
  | .notEqual => {['!', '=']}
  | .atLeast => {['>', '=']}
  | .atMost => {['<', '=']}
  | .greater => {['>']}
  | .less => {['<']}
  | .duration _ => quantities
  | .number _ => numerals
  | .text _ => quoted '"' + quoted '\''
  | .ident _ => names

end Token

section Words

variable {p : Char → Prop} {c quote : Char} {w ds : List Char} {L : Language Char}

/-- A repetition that is not empty starts with a word that is not empty.

**Proof sketch.** A word of a repetition consists of words that are not empty, and the first of them
is where it starts. -/
lemma cons_mem_kstar : c :: w ∈ L∗ ↔ ∃ u v, c :: u ∈ L ∧ v ∈ L∗ ∧ w = u ++ v := by
  constructor
  · intro h
    obtain ⟨parts, hparts, hwords⟩ := Language.mem_kstar_iff_exists_nonempty.mp h
    cases parts with
    | nil => cases hparts
    | cons part parts =>
      obtain ⟨hpart, hne⟩ := hwords part List.mem_cons_self
      cases part with
      | nil => exact absurd rfl hne
      | cons d u =>
        obtain ⟨rfl, rfl⟩ := List.cons.inj hparts
        refine ⟨u, parts.flatten, hpart, Language.join_mem_kstar fun y hy => ?_, rfl⟩
        exact (hwords y (List.mem_cons_of_mem _ hy)).1
  · rintro ⟨u, v, hu, hv, rfl⟩
    rw [← Language.one_add_self_mul_kstar_eq_kstar, Language.mem_add]
    exact .inr (Language.append_mem_mul hu hv)

/-- A run of characters of a class is one of them and then such a run. -/
lemma cons_mem_oneOf_kstar : c :: w ∈ (oneOf p)∗ ↔ p c ∧ w ∈ (oneOf p)∗ := by
  rw [cons_mem_kstar]
  constructor
  · rintro ⟨u, v, ⟨d, hd, hu⟩, hv, rfl⟩
    obtain ⟨rfl, rfl⟩ := List.cons.inj hu
    exact ⟨hd, hv⟩
  · rintro ⟨hc, hw⟩
    exact ⟨[], w, ⟨c, hc, rfl⟩, hw, rfl⟩

/-- A run of characters of a class consists of them. -/
lemma mem_oneOf_kstar : w ∈ (oneOf p)∗ ↔ ∀ c ∈ w, p c := by
  induction w with
  | nil => exact iff_of_true (Language.nil_mem_kstar _) nofun
  | cons c w ih => rw [cons_mem_oneOf_kstar, ih, List.forall_mem_cons]

/-- A word of a class and then others. -/
lemma mem_oneOf_mul : w ∈ oneOf p * L ↔ ∃ c u, p c ∧ u ∈ L ∧ w = c :: u := by
  rw [Language.mem_mul]
  constructor
  · rintro ⟨_, ⟨c, hc, rfl⟩, u, hu, rfl⟩
    exact ⟨c, u, hc, hu, rfl⟩
  · rintro ⟨c, u, hc, hu, rfl⟩
    exact ⟨[c], ⟨c, hc, rfl⟩, u, hu, rfl⟩

/-- A fixed character and then others. -/
lemma mem_char_mul {d : Char} : w ∈ ({[d]} : Language Char) * L ↔ ∃ u ∈ L, w = d :: u := by
  rw [Language.mem_mul]
  constructor
  · rintro ⟨_, rfl, u, hu, rfl⟩
    exact ⟨u, hu, rfl⟩
  · rintro ⟨u, hu, rfl⟩
    exact ⟨[d], rfl, u, hu, rfl⟩

/-! ### Numerals -/

/-- A run of digits has at least one. -/
lemma mem_digits : w ∈ digits ↔ w ≠ [] ∧ ∀ c ∈ w, c.isDigit = true := by
  rw [digits, mem_oneOf_mul]
  constructor
  · rintro ⟨c, u, hc, hu, rfl⟩
    exact ⟨List.cons_ne_nil _ _, List.forall_mem_cons.mpr ⟨hc, mem_oneOf_kstar.mp hu⟩⟩
  · rintro ⟨hne, hw⟩
    obtain ⟨c, u, rfl⟩ := List.exists_cons_of_ne_nil hne
    obtain ⟨hc, hu⟩ := List.forall_mem_cons.mp hw
    exact ⟨c, u, hc, mem_oneOf_kstar.mpr hu, rfl⟩

/-- A numeral is made of digits, or of digits with a point between them. -/
lemma mem_numerals : w ∈ numerals ↔
    w ∈ digits ∨ ∃ whole ∈ digits, ∃ fraction ∈ digits, w = whole ++ '.' :: fraction := by
  rw [numerals, Language.mem_mul]
  constructor
  · rintro ⟨whole, hwhole, tail, htail, rfl⟩
    rcases (Language.mem_add _ _ _).mp htail with hnil | htail
    · rw [(Language.mem_one _).mp hnil, List.append_nil]
      exact .inl hwhole
    · obtain ⟨fraction, hfraction, rfl⟩ := mem_char_mul.mp htail
      exact .inr ⟨whole, hwhole, fraction, hfraction, rfl⟩
  · rintro (hw | ⟨whole, hwhole, fraction, hfraction, rfl⟩)
    · exact ⟨w, hw, [], (Language.mem_add _ _ _).mpr (.inl rfl), List.append_nil w⟩
    · exact ⟨whole, hwhole, '.' :: fraction,
        (Language.mem_add _ _ _).mpr (.inr (mem_char_mul.mpr ⟨fraction, hfraction, rfl⟩)), rfl⟩

/-- A number with a unit is a number and then a unit. -/
lemma mem_quantities : w ∈ quantities ↔ ∃ u ∈ numerals, ∃ c, isUnit c = true ∧ w = u ++ [c] := by
  have hunit : ∀ c, c ∈ ['s', 'm', 'h', 'd', 'w'] ↔ isUnit c = true := by
    intro c
    unfold isUnit secondsOfUnit?
    split <;> simp_all
  rw [quantities, Language.mem_mul]
  constructor
  · rintro ⟨u, hu, _, ⟨c, hc, rfl⟩, rfl⟩
    exact ⟨u, hu, c, (hunit c).mp hc, rfl⟩
  · rintro ⟨u, hu, c, hc, rfl⟩
    exact ⟨u, hu, [c], ⟨c, (hunit c).mpr hc, rfl⟩, rfl⟩

/-! ### Names -/

/-- What may follow the first character of a name. -/
def nameTails : Language Char :=
  (oneOf (isNameChar · = true))∗ * ({['.']} * nameParts)∗

/-- Nothing needs to follow the first character of a name. -/
lemma nil_mem_nameTails : [] ∈ nameTails :=
  Language.append_mem_mul (Language.nil_mem_kstar _) (Language.nil_mem_kstar _)

/-- A name is a character that may start one and then the rest of a name. -/
lemma cons_mem_names : c :: w ∈ names ↔ isNameStart c = true ∧ w ∈ nameTails := by
  rw [names, nameParts, mul_assoc, mem_oneOf_mul]
  constructor
  · rintro ⟨d, u, hd, hu, h⟩
    obtain ⟨rfl, rfl⟩ := List.cons.inj h
    exact ⟨hd, hu⟩
  · rintro ⟨hc, hw⟩
    exact ⟨c, w, hc, hw, rfl⟩

/-- A name goes on with a character of a name, or with a dot and another part.

**Proof sketch.** What follows the first character is a run of characters of a name and then parts
with dots. If the run is empty, the first part starts with the dot. -/
lemma cons_mem_nameTails : c :: w ∈ nameTails ↔
    isNameChar c = true ∧ w ∈ nameTails ∨
      c = '.' ∧ ∃ d u, isNameStart d = true ∧ u ∈ nameTails ∧ w = d :: u := by
  rw [nameTails, Language.mem_mul]
  constructor
  · rintro ⟨a, ha, b, hb, h⟩
    cases a with
    | nil =>
      rw [List.nil_append] at h
      obtain ⟨u, v, hpart, hv, rfl⟩ := cons_mem_kstar.mp (h ▸ hb)
      obtain ⟨part, hpart, hdot⟩ := mem_char_mul.mp hpart
      obtain ⟨rfl, rfl⟩ := List.cons.inj hdot
      obtain ⟨d, u', hd, hu', rfl⟩ := mem_oneOf_mul.mp hpart
      exact .inr ⟨rfl, d, u' ++ v, hd, Language.append_mem_mul hu' hv, rfl⟩
    | cons d a =>
      obtain ⟨rfl, rfl⟩ := List.cons.inj h
      obtain ⟨hd, ha⟩ := cons_mem_oneOf_kstar.mp ha
      exact .inl ⟨hd, Language.append_mem_mul ha hb⟩
  · rintro (⟨hc, hw⟩ | ⟨rfl, d, u, hd, hu, rfl⟩)
    · obtain ⟨a, ha, b, hb, rfl⟩ := Language.mem_mul.mp hw
      exact ⟨c :: a, cons_mem_oneOf_kstar.mpr ⟨hc, ha⟩, b, hb, rfl⟩
    · obtain ⟨a, ha, b, hb, rfl⟩ := Language.mem_mul.mp hu
      have hpart : '.' :: d :: a ∈ ({['.']} : Language Char) * nameParts :=
        mem_char_mul.mpr ⟨d :: a, mem_oneOf_mul.mpr ⟨d, a, hd, ha, rfl⟩, rfl⟩
      exact ⟨[], Language.nil_mem_kstar _, '.' :: d :: (a ++ b),
        cons_mem_kstar.mpr ⟨d :: a, b, hpart, hb, rfl⟩, rfl⟩

/-! ### Texts -/

/-- A text is what may stand between quotes, between two of them. -/
lemma mem_quoted : w ∈ quoted quote ↔ ∃ body ∈ quotable quote, w = quote :: (body ++ [quote]) := by
  rw [quoted, mul_assoc, mem_char_mul]
  constructor
  · rintro ⟨u, hu, rfl⟩
    obtain ⟨body, hbody, _, rfl, rfl⟩ := Language.mem_mul.mp hu
    exact ⟨body, hbody, rfl⟩
  · rintro ⟨body, hbody, rfl⟩
    exact ⟨body ++ [quote], Language.append_mem_mul hbody rfl, rfl⟩

/-- Nothing needs to stand between quotes. -/
lemma nil_mem_quotable : [] ∈ quotable quote :=
  Language.nil_mem_kstar _

/-- Between quotes there is another character first, or a backslash and a character that it
escapes.

**Proof sketch.** The first piece of the repetition is a single character, or a backslash with the
character behind it. -/
lemma cons_mem_quotable : c :: w ∈ quotable quote ↔
    (c ≠ quote ∧ c ≠ '\\') ∧ w ∈ quotable quote ∨
      c = '\\' ∧ ∃ d u, d ≠ '\n' ∧ u ∈ quotable quote ∧ w = d :: u := by
  rw [quotable, cons_mem_kstar]
  constructor
  · rintro ⟨u, v, hu, hv, rfl⟩
    rcases (Language.mem_add _ _ _).mp hu with ⟨d, hd, hword⟩ | hescape
    · obtain ⟨rfl, rfl⟩ := List.cons.inj hword
      exact .inl ⟨hd, hv⟩
    · obtain ⟨_, ⟨d, hd, rfl⟩, hword⟩ := mem_char_mul.mp hescape
      obtain ⟨rfl, rfl⟩ := List.cons.inj hword
      exact .inr ⟨rfl, d, v, hd, hv, rfl⟩
  · rintro (⟨hc, hw⟩ | ⟨rfl, d, u, hd, hu, rfl⟩)
    · exact ⟨[], w, (Language.mem_add _ _ _).mpr (.inl ⟨c, hc, rfl⟩), hw, rfl⟩
    · have hescape : ['\\', d] ∈ ({['\\']} : Language Char) * oneOf (· ≠ '\n') :=
        mem_char_mul.mpr ⟨[d], ⟨d, hd, rfl⟩, rfl⟩
      exact ⟨[d], u, (Language.mem_add _ _ _).mpr (.inr hescape), hu, rfl⟩

end Words

/-! ### First characters -/

/-- What the words of a token look like. -/
inductive Shape where
  /-- They start with a digit. -/
  | numeral
  /-- They start with a letter or an underscore. -/
  | name
  /-- They stand in quotes. -/
  | text
  /-- They are made of signs. -/
  | sign
deriving DecidableEq, Repr

/-- The shape of the words that start with a character, if there are any. -/
def Shape.ofFirst (c : Char) : Shape :=
  if c.isDigit then .numeral
  else if isNameStart c then .name
  else if isQuote c then .text
  else .sign

/-- A shape tells the class of the first character. -/
lemma Shape.ofFirst_spec (c : Char) :
    match Shape.ofFirst c with
    | .numeral => c.isDigit = true
    | .name => isNameStart c = true
    | .text => isQuote c = true
    | .sign => isQuote c = false := by
  unfold Shape.ofFirst
  split_ifs with hdigit hname hquote
  · exact hdigit
  · exact hname
  · exact hquote
  · exact eq_false_of_ne_true hquote

/-- There are two kinds of quotes. -/
lemma isQuote_iff {c : Char} : isQuote c = true ↔ c = '"' ∨ c = '\'' := by
  simp [isQuote]

/-- A backslash is no quote. -/
lemma ne_backslash_of_isQuote {c : Char} (hc : isQuote c = true) : c ≠ '\\' := by
  rintro rfl
  exact absurd hc (by decide)

namespace Token

/-- The shape of the words of a token. -/
def shape : Token → Shape
  | .duration _ | .number _ => .numeral
  | .text _ => .text
  | .ident _ => .name
  | _ => .sign

/-- No digit starts a name. -/
lemma isDigit_eq_false_of_isNameStart {c : Char} (h : isNameStart c = true) :
    c.isDigit = false := by
  rcases Bool.or_eq_true_iff.mp h with h | h
  · have hletter : 'A'.val ≤ c.val := by
      rcases Bool.or_eq_true_iff.mp (show (c.isUpper || c.isLower) = true from h) with h | h
      · exact (of_decide_eq_true h).1
      · have hlower : 'a'.val ≤ c.val :=
          of_decide_eq_true (Bool.and_eq_true_iff.mp h).1
        exact UInt32.le_trans (by decide) hlower
    -- Letters come after digits.
    refine eq_false_of_ne_true fun hdigit => absurd ?_ (show ¬ 'A'.toNat ≤ '9'.toNat by decide)
    exact Nat.le_trans hletter (Char.isDigit_iff_toNat.mp hdigit).2
  · rw [eq_of_beq h]
    rfl

/-- A word starts with a character that tells its shape.

**Proof sketch.** By the token: digits start with a digit, a name with a character that may start
one, a text with its quote, and signs with the sign itself. -/
lemma exists_cons_of_mem_words {token : Token} {w : List Char} (h : w ∈ token.words) :
    ∃ c u, w = c :: u ∧ Shape.ofFirst c = token.shape := by
  cases token with
  | duration seconds =>
    replace h : w ∈ quantities := h
    rw [quantities, numerals, digits, mul_assoc, mul_assoc, mem_oneOf_mul] at h
    obtain ⟨c, u, hc, -, rfl⟩ := h
    exact ⟨c, u, rfl, if_pos hc⟩
  | number value =>
    replace h : w ∈ numerals := h
    rw [numerals, digits, mul_assoc, mem_oneOf_mul] at h
    obtain ⟨c, u, hc, -, rfl⟩ := h
    exact ⟨c, u, rfl, if_pos hc⟩
  | text value =>
    rcases (Language.mem_add _ _ _).mp h with h | h
    · obtain ⟨body, -, rfl⟩ := mem_quoted.mp h
      exact ⟨'"', _, rfl, rfl⟩
    · obtain ⟨body, -, rfl⟩ := mem_quoted.mp h
      exact ⟨'\'', _, rfl, rfl⟩
  | ident name =>
    replace h : w ∈ names := h
    rw [names, nameParts, mul_assoc, mem_oneOf_mul] at h
    obtain ⟨c, u, hc, -, rfl⟩ := h
    refine ⟨c, u, rfl, ?_⟩
    rw [Shape.ofFirst, if_neg (by simp [isDigit_eq_false_of_isNameStart hc]), if_pos hc]
    rfl
  | equal =>
    rcases h with rfl | rfl
    · exact ⟨'=', [], rfl, rfl⟩
    · exact ⟨'=', ['='], rfl, rfl⟩
  | _ =>
    cases h
    exact ⟨_, _, rfl, rfl⟩

end Token

end Cohort.Formula
