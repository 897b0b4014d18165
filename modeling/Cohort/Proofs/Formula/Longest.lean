import Mathlib.Data.List.TakeWhile
import Cohort.Formula.Lexer
import Cohort.Proofs.Formula.Pattern
set_option relaxedAutoImplicit false
set_option autoImplicit false

/-!
# Longest words

The lengths that a formula is cut at are those of the longest words there: what is taken is a word,
and a word at the front is never longer.

## Main definitions

* `Cohort.Formula.BreaksOff` — where a text without a closing quote ends.

## Main results

* `Cohort.Formula.take_numberLength_mem`, `Cohort.Formula.take_quantityLength_mem`,
  `Cohort.Formula.take_nameLength_mem`, `Cohort.Formula.exists_quotable_append` — what is taken.
* `Cohort.Formula.length_le_numberLength`, `Cohort.Formula.length_le_quantityLength`,
  `Cohort.Formula.length_le_nameLength`, `Cohort.Formula.length_le_signLength` — words at the front
  are not longer.
* `Cohort.Formula.textLength_append` — what may stand between quotes is passed over.
-/

namespace Cohort.Formula

variable {c quote : Char} {cs rest w : List Char}

/-! ### Numerals -/

/-- Characters of a class at the front are among those that are taken. -/
lemma length_le_takeWhile {p : Char → Bool} (hw : ∀ c ∈ w, p c = true) (h : w <+: cs) :
    w.length ≤ (cs.takeWhile p).length := by
  obtain ⟨rest, rfl⟩ := h
  rw [List.takeWhile_append_of_pos hw, List.length_append]
  exact Nat.le_add_right _ _

/-- The characters that are passed over stand at the front. -/
lemma take_length_takeWhile (p : Char → Bool) (cs : List Char) :
    cs.take (cs.takeWhile p).length = cs.takeWhile p :=
  (List.prefix_iff_eq_take.mp (List.takeWhile_prefix p)).symm

/-- Digits that are passed over are a run of digits, if there are any. -/
lemma takeWhile_isDigit_mem_digits (h : (cs.takeWhile Char.isDigit).length ≠ 0) :
    cs.takeWhile Char.isDigit ∈ digits :=
  mem_digits.mpr ⟨List.ne_nil_of_length_pos (Nat.pos_of_ne_zero h),
    fun _ => List.mem_takeWhile_imp⟩

/-- A numeral is not shorter than its digits at the front. -/
lemma length_takeWhile_le_numberLength (cs : List Char) :
    (cs.takeWhile Char.isDigit).length ≤ numberLength cs := by
  unfold numberLength
  dsimp only
  split
  · split <;> omega
  · exact le_rfl

/-- A numeral at the front is not longer than the number there.

**Proof sketch.** Without a point the numeral is a run of digits, and the longest run is taken. With
a point the run before it ends there, and the longest run behind it is taken. -/
theorem length_le_numberLength (hw : w ∈ numerals) (h : w <+: cs) :
    w.length ≤ numberLength cs := by
  rcases mem_numerals.mp hw with hw | ⟨whole, hwhole, fraction, hfraction, rfl⟩
  · exact (length_le_takeWhile (mem_digits.mp hw).2 h).trans (length_takeWhile_le_numberLength cs)
  · obtain ⟨rest, rfl⟩ := h
    have htake : (whole ++ '.' :: fraction ++ rest).takeWhile Char.isDigit = whole := by
      rw [List.append_assoc, List.takeWhile_append_of_pos (mem_digits.mp hwhole).2]
      exact List.append_nil whole
    have hdrop : (whole ++ '.' :: fraction ++ rest).drop whole.length =
        '.' :: (fraction ++ rest) := by
      rw [List.append_assoc, List.drop_left]
      rfl
    have hlength : fraction.length ≤ ((fraction ++ rest).takeWhile Char.isDigit).length :=
      length_le_takeWhile (mem_digits.mp hfraction).2 (List.prefix_append _ _)
    have hpos : 0 < fraction.length := List.length_pos_of_ne_nil (mem_digits.mp hfraction).1
    simp only [numberLength, htake, hdrop, List.length_append, List.length_cons]
    split <;> omega

/-- What is taken for a number is a numeral.

**Proof sketch.** By what follows the first run of digits: a point with digits behind it is taken
with them, and anything else is left. -/
theorem take_numberLength_mem (hc : c.isDigit = true) :
    (c :: cs).take (numberLength (c :: cs)) ∈ numerals := by
  have hwhole : (c :: cs).takeWhile Char.isDigit ∈ digits := by
    refine takeWhile_isDigit_mem_digits ?_
    rw [List.takeWhile_cons_of_pos hc]
    exact Nat.succ_ne_zero _
  unfold numberLength
  dsimp only
  split
  · rename_i rest hrest
    split
    · rw [take_length_takeWhile]
      exact mem_numerals.mpr (.inl hwhole)
    · rename_i hfraction
      rw [Nat.add_assoc, List.take_add, hrest, take_length_takeWhile, Nat.add_comm 1,
        List.take_succ_cons, take_length_takeWhile]
      exact mem_numerals.mpr
        (.inr ⟨_, hwhole, _, takeWhile_isDigit_mem_digits hfraction, rfl⟩)
  · rw [take_length_takeWhile]
    exact mem_numerals.mpr (.inl hwhole)

/-! ### Quantities -/

/-- No digit is the name of a unit. -/
lemma secondsOfUnit?_eq_none_of_isDigit (hc : c.isDigit = true) : secondsOfUnit? c = none := by
  unfold secondsOfUnit?
  split <;> first | rfl | exact absurd hc (by decide)

/-- A numeral spells a number.

**Proof sketch.** The last character of a numeral is a digit, so no letter for a unit stands
there. -/
lemma ofDigits_of_mem_numerals (hw : w ∈ numerals) :
    Token.ofDigits w = .number (floatOfDigits w) := by
  have hlast : ∃ d, w.getLast? = some d ∧ d.isDigit = true := by
    have of_digits : ∀ ds ∈ digits, ∃ d, ds.getLast? = some d ∧ d.isDigit = true := by
      intro ds hds
      obtain ⟨hne, hds⟩ := mem_digits.mp hds
      exact ⟨ds.getLast hne, List.getLast?_eq_some_getLast hne, hds _ (List.getLast_mem hne)⟩
    rcases mem_numerals.mp hw with hw | ⟨whole, -, fraction, hfraction, rfl⟩
    · exact of_digits w hw
    · obtain ⟨d, hlast, hd⟩ := of_digits fraction hfraction
      refine ⟨d, ?_, hd⟩
      rw [List.getLast?_append, List.getLast?_cons, hlast]
      rfl
  obtain ⟨d, hlast, hd⟩ := hlast
  rw [Token.ofDigits, hlast, Option.bind_some, secondsOfUnit?_eq_none_of_isDigit hd]

/-- A numeral with a unit spells a length of time. -/
lemma exists_ofDigits_append_unit (hc : isUnit c = true) :
    ∃ seconds, Token.ofDigits (w ++ [c]) = .duration seconds := by
  obtain ⟨seconds, hseconds⟩ := Option.isSome_iff_exists.mp hc
  rw [Token.ofDigits, List.getLast?_concat, Option.bind_some, hseconds]
  exact ⟨_, rfl⟩

/-- What is taken for a number with a unit, or without one, is a word of the token it spells.

**Proof sketch.** By what follows the number: a unit is taken with it, and the word then means a
length of time; anything else is left. -/
theorem take_quantityLength_mem (hc : c.isDigit = true) :
    (c :: cs).take (quantityLength (c :: cs)) ∈
      (Token.ofDigits ((c :: cs).take (quantityLength (c :: cs)))).words := by
  have hnumeral : (c :: cs).take (numberLength (c :: cs)) ∈ numerals := take_numberLength_mem hc
  have hnumber := ofDigits_of_mem_numerals hnumeral
  unfold quantityLength
  dsimp only
  split
  · rename_i d rest hrest
    split
    · rename_i hd
      rw [List.take_add, hrest, List.take_succ_cons, List.take_zero]
      obtain ⟨seconds, hseconds⟩ := exists_ofDigits_append_unit
        (w := (c :: cs).take (numberLength (c :: cs))) hd
      rw [hseconds]
      exact mem_quantities.mpr ⟨_, hnumeral, d, hd, rfl⟩
    · rw [hnumber]
      exact hnumeral
  · rw [hnumber]
    exact hnumeral

/-- A number with a unit is not shorter than the number. -/
lemma numberLength_le_quantityLength (cs : List Char) : numberLength cs ≤ quantityLength cs := by
  unfold quantityLength
  dsimp only
  split
  · split <;> omega
  · exact le_rfl

/-- What starts with a digit is a number, with or without a unit. -/
lemma quantityLength_pos (hc : c.isDigit = true) : 0 < quantityLength (c :: cs) := by
  have hle := length_takeWhile_le_numberLength (c :: cs)
  rw [List.takeWhile_cons_of_pos hc] at hle
  exact (Nat.lt_of_lt_of_le (Nat.succ_pos _) hle).trans_le (numberLength_le_quantityLength _)

/-- A numeral at the front, with a unit or without one, is not longer than what is taken.

**Proof sketch.** A unit stands right behind the longest numeral, or the numeral without it is
shorter than what is taken. -/
theorem length_le_quantityLength (hw : w ∈ numerals ∨ w ∈ quantities) (h : w <+: cs) :
    w.length ≤ quantityLength cs := by
  rcases hw with hw | hw
  · exact (length_le_numberLength hw h).trans (numberLength_le_quantityLength cs)
  · obtain ⟨u, hu, d, hd, rfl⟩ := mem_quantities.mp hw
    have hle : u.length ≤ numberLength cs :=
      length_le_numberLength hu ((List.prefix_append u [d]).trans h)
    rw [List.length_append, List.length_singleton]
    rcases hle.lt_or_eq with hlt | heq
    · exact Nat.succ_le_of_lt (hlt.trans_le (numberLength_le_quantityLength cs))
    · -- The unit stands right after the longest numeral.
      obtain ⟨rest, rfl⟩ := h
      have hdrop : (u ++ [d] ++ rest).drop (numberLength (u ++ [d] ++ rest)) = d :: rest := by
        rw [← heq, List.append_assoc, List.drop_left]
        rfl
      rw [quantityLength, hdrop]
      simp only [hd, if_true]
      omega

/-! ### Names -/

/-- What starts a name may stand inside one. -/
lemma isNameChar_of_isNameStart (h : isNameStart c = true) : isNameChar c = true := by
  rw [isNameStart, Bool.or_eq_true] at h
  rw [isNameChar, Char.isAlphanum, Bool.or_eq_true, Bool.or_eq_true]
  tauto

/-- A character that may stand in a name is taken. -/
lemma nameLength_cons (hc : isNameChar c = true) : nameLength (c :: cs) = nameLength cs + 1 := by
  rw [nameLength.eq_def]
  exact if_pos hc

/-- A dot is taken if a name may start after it. -/
lemma nameLength_dot (hc : isNameStart c = true) :
    nameLength ('.' :: c :: cs) = nameLength (c :: cs) + 1 := by
  rw [nameLength.eq_def]
  exact if_pos hc

/-- What is taken for the rest of a name may follow the start of a name.

**Proof sketch.** Along the recursion of the length. A dot is taken if a name starts behind it, and
then that name is taken as well. -/
theorem take_nameLength_mem (cs : List Char) : cs.take (nameLength cs) ∈ nameTails := by
  fun_induction nameLength cs with
  | case2 c cs hc ih => exact cons_mem_nameTails.mpr (.inl ⟨hc, ih⟩)
  | case3 c _ hdot d cs hd ih =>
    rw [nameLength_cons (isNameChar_of_isNameStart hd), List.take_succ_cons] at ih ⊢
    rw [List.take_succ_cons]
    rcases cons_mem_nameTails.mp ih with ⟨-, htail⟩ | ⟨rfl, -⟩
    · exact cons_mem_nameTails.mpr (.inr ⟨eq_of_beq hdot, d, _, hd, htail, rfl⟩)
    · exact absurd hd (by decide)
  | _ => exact nil_mem_nameTails

/-- A rest of a name at the front is not longer than what is taken.

**Proof sketch.** Induction on the rest of the name. A dot in it is followed by the start of a name,
so it is taken too. -/
theorem length_le_nameLength (hw : w ∈ nameTails) (h : w <+: cs) : w.length ≤ nameLength cs := by
  obtain ⟨rest, rfl⟩ := h
  induction w with
  | nil => exact Nat.zero_le _
  | cons c w ih =>
    rcases cons_mem_nameTails.mp hw with ⟨hc, hw⟩ | ⟨rfl, d, u, hd, hu, rfl⟩
    · rw [List.cons_append, nameLength_cons hc]
      exact Nat.succ_le_succ (ih hw)
    · have hw : d :: u ∈ nameTails :=
        cons_mem_nameTails.mpr (.inl ⟨isNameChar_of_isNameStart hd, hu⟩)
      rw [List.cons_append, List.cons_append, nameLength_dot hd]
      exact Nat.succ_le_succ (ih hw)

/-! ### Texts -/

/-- Where a text without a closing quote breaks off: at the end, or at a backslash that escapes
nothing. -/
inductive BreaksOff : List Char → Prop where
  | atEnd : BreaksOff []
  | lone : BreaksOff ['\\']
  | lineBreak (cs : List Char) : BreaksOff ('\\' :: '\n' :: cs)

/-- Where a text breaks off nothing more is passed over, and the text is not closed. -/
lemma textLength_of_breaksOff (h : BreaksOff cs) : textLength quote cs = (0, false) := by
  cases h <;> rfl

/-- The quote closes its text. -/
lemma textLength_quote (hquote : quote ≠ '\\') : textLength quote (quote :: cs) = (1, true) := by
  rw [textLength.eq_4 _ _ _ (fun _ _ h => absurd h hquote) (fun h => absurd h hquote)]
  exact if_pos BEq.rfl

/-- A character that means itself is passed over. -/
lemma textLength_cons (hc : c ≠ quote) (hescape : c ≠ '\\') :
    textLength quote (c :: cs) = ((textLength quote cs).1 + 1, (textLength quote cs).2) := by
  rw [textLength.eq_4 _ _ _ (fun _ _ h => absurd h hescape) (fun h => absurd h hescape)]
  exact if_neg (by simpa using hc)

/-- A character after a backslash is passed over with it, unless it is a line break. -/
lemma textLength_escape (hc : c ≠ '\n') :
    textLength quote ('\\' :: c :: cs) =
      ((textLength quote cs).1 + 2, (textLength quote cs).2) := by
  rw [textLength.eq_2]
  exact if_neg (by simpa using hc)

/-- What may stand between quotes is passed over. -/
theorem textLength_append :
    ∀ {body : List Char}, body ∈ quotable quote →
      textLength quote (body ++ rest) =
        (body.length + (textLength quote rest).1, (textLength quote rest).2)
  | [], _ => by rw [List.nil_append, List.length_nil, Nat.zero_add]
  | c :: body, h => by
    rcases cons_mem_quotable.mp h with ⟨⟨hc, hescape⟩, hbody⟩ | ⟨rfl, d, u, hd, hu, rfl⟩
    · rw [List.cons_append, textLength_cons hc hescape, textLength_append hbody, List.length_cons,
        Nat.add_right_comm]
    · rw [List.cons_append, List.cons_append, textLength_escape hd, textLength_append hu,
        List.length_cons, List.length_cons, Nat.add_right_comm]
termination_by body => body.length

/-- A text that its quote follows is closed there. -/
lemma textLength_closed {body after : List Char} (hquote : quote ≠ '\\')
    (hbody : body ∈ quotable quote) :
    textLength quote (body ++ quote :: after) = (body.length + 1, true) := by
  rw [textLength_append hbody, textLength_quote hquote]

/-- A text that breaks off is passed over as far as it may stand between quotes. -/
lemma textLength_broken {body : List Char} (hbody : body ∈ quotable quote) (h : BreaksOff rest) :
    textLength quote (body ++ rest) = (body.length, false) := by
  rw [textLength_append hbody, textLength_of_breaksOff h, Nat.add_zero]

/-- A text goes on as far as its characters may stand between quotes: there its quote closes it, or
it breaks off.

**Proof sketch.** Along the recursion that goes through the text: it stops at the quote, at the end,
at a backslash alone and before a line break, and otherwise passes one or two characters over. -/
theorem exists_quotable_append (quote : Char) (cs : List Char) :
    ∃ body ∈ quotable quote, ∃ rest, cs = body ++ rest ∧
      ((∃ after, rest = quote :: after) ∨ BreaksOff rest) := by
  fun_induction textLength quote cs with
  | case1 => exact ⟨[], nil_mem_quotable, [], rfl, .inr .atEnd⟩
  | case2 c cs hc =>
    refine ⟨[], nil_mem_quotable, _, rfl, .inr ?_⟩
    rw [eq_of_beq hc]
    exact .lineBreak cs
  | case3 c cs hc n closed _ ih =>
    obtain ⟨body, hbody, rest, rfl, hrest⟩ := ih
    exact ⟨'\\' :: c :: body,
      cons_mem_quotable.mpr (.inr ⟨rfl, c, body, by simpa using hc, hbody, rfl⟩), rest, rfl, hrest⟩
  | case4 => exact ⟨[], nil_mem_quotable, _, rfl, .inr .lone⟩
  | case5 c cs _ _ hc =>
    refine ⟨[], nil_mem_quotable, _, rfl, .inl ⟨cs, ?_⟩⟩
    rw [eq_of_beq hc]
  | case6 c cs hpair hlone hc n closed _ ih =>
    obtain ⟨body, hbody, rest, rfl, hrest⟩ := ih
    have hescape : c ≠ '\\' := by
      intro h
      cases hcs : body ++ rest with
      | nil => exact hlone h hcs
      | cons d ds => exact hpair d ds h hcs
    exact ⟨c :: body, cons_mem_quotable.mpr (.inl ⟨⟨by simpa using hc, hescape⟩, hbody⟩), rest, rfl,
      hrest⟩

/-! ### Signs -/

/-- The words of signs are what signs are read from. -/
theorem ofSigns?_eq_some {token : Token} :
    Token.ofSigns? w = some token ↔ token.shape = .sign ∧ w ∈ token.words := by
  constructor
  · unfold Token.ofSigns?
    split <;> rintro ⟨⟩ <;>
      first | exact ⟨rfl, rfl⟩ | exact ⟨rfl, .inl rfl⟩ | exact ⟨rfl, .inr rfl⟩
  · rintro ⟨hshape, hw⟩
    cases token with
    | equal => rcases hw with rfl | rfl <;> rfl
    | duration => cases hshape
    | number => cases hshape
    | text => cases hshape
    | ident => cases hshape
    | _ => cases hw; rfl

/-- A sign is one character, or one with an equals sign after it. -/
lemma exists_of_ofSigns? {token : Token} (h : Token.ofSigns? w = some token) :
    ∃ c, w = [c] ∨ w = [c, '='] := by
  unfold Token.ofSigns? at h
  split at h <;> first | exact ⟨_, .inl rfl⟩ | exact ⟨_, .inr rfl⟩ | cases h

/-- Two signs that are a token together are both taken. -/
lemma signLength_eq_one {token : Token} (h : Token.ofSigns? [c, '='] = some token) :
    signLength c ('=' :: cs) = 1 := by
  unfold Token.ofSigns? at h
  split at h <;> simp_all [signLength]

/-- An equals sign is taken only where that makes a sign. -/
lemma signLength_cases (c : Char) (cs : List Char) :
    signLength c cs = 0 ∨ signLength c cs = 1 ∧
      ∃ rest token, cs = '=' :: rest ∧ Token.ofSigns? [c, '='] = some token := by
  unfold signLength
  split
  · rename_i rest
    split
    · rename_i hc
      simp only [Bool.or_eq_true, beq_iff_eq] at hc
      rcases hc with ((rfl | rfl) | rfl) | rfl <;> exact .inr ⟨rfl, rest, _, rfl, rfl⟩
    · exact .inl rfl
  · exact .inl rfl

/-- A sign at the front is not longer than what is taken. -/
theorem length_le_signLength {token : Token} (hw : Token.ofSigns? w = some token)
    (h : w <+: c :: cs) : w.length ≤ signLength c cs + 1 := by
  obtain ⟨d, rfl | rfl⟩ := exists_of_ofSigns? hw
  · exact Nat.le_add_left _ _
  · obtain ⟨rfl, rest, rfl⟩ := List.cons_prefix_cons.mp h
    rw [List.singleton_append, signLength_eq_one hw]
    rfl

/-- Where no sign is taken, there is none. -/
theorem not_prefix_of_ofSigns?_eq_none {token : Token}
    (hnone : Token.ofSigns? (c :: cs.take (signLength c cs)) = none)
    (hw : Token.ofSigns? w = some token) : ¬ w <+: c :: cs := by
  intro h
  rcases signLength_cases c cs with hlength | ⟨hlength, rest, other, rfl, hpair⟩
  · have hle := length_le_signLength hw h
    rw [hlength] at hnone hle
    obtain ⟨d, rfl | rfl⟩ := exists_of_ofSigns? hw
    · obtain ⟨rfl, -⟩ := List.cons_prefix_cons.mp h
      exact Option.some_ne_none _ (hw.symm.trans hnone)
    · exact absurd hle (Nat.not_succ_le_self 1)
  · rw [hlength] at hnone
    exact Option.some_ne_none _ (hpair.symm.trans hnone)

end Cohort.Formula
