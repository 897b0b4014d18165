import Cohort.Proofs.Formula.Lexemes
set_option relaxedAutoImplicit false
set_option autoImplicit false

/-!
# Texts between quotes

Every text can be written in a formula: between two quotes, with a backslash before each quote and
each backslash in it. Where no text is open before, such a literal is a lexeme of its own, whatever
follows it. Reading it takes the backslashes away again; that never fails for what may stand
between quotes, since a backslash there always escapes a character.

## Main definitions

* `Cohort.Formula.literal` — a text between quotes.
* `Cohort.Formula.unquote?` — the text that a word in quotes spells, if it can be read.
* `Cohort.Formula.Lexeme.IsOpen` — a quote that is never closed.

## Main results

* `Cohort.Formula.unescape_escape` — a text that is written and read stays the same.
* `Cohort.Formula.unquote?_quoted` — a word in quotes can be read.
* `Cohort.Formula.lexemesFrom_append_quote` — a quote starts a lexeme unless a text is open.
* `Cohort.Formula.literal_lexes` — all of this for literals in formulas.
-/

namespace Cohort.Formula

variable {c quote : Char} {body cs rest w : List Char} {start : Nat}

/-! ### Writing a text -/

/-- A character between quotes: a backslash stands before a quote and before a backslash. -/
def escapeChar (quote c : Char) : List Char :=
  if c = quote ∨ c = '\\' then ['\\', c] else [c]

/-- Characters between quotes. -/
def escape (quote : Char) (cs : List Char) : List Char :=
  cs.flatMap (escapeChar quote)

/-- A text between quotes. -/
def literal (quote : Char) (s : String) : String :=
  String.ofList (quote :: (escape quote s.toList ++ [quote]))

/-- A quote and a backslash are written with a backslash before them. -/
lemma escape_cons_of_escaped (hc : c = quote ∨ c = '\\') :
    escape quote (c :: cs) = '\\' :: c :: escape quote cs := by
  rw [escape, List.flatMap_cons, escapeChar, if_pos hc]
  rfl

/-- Other characters are written as they are. -/
lemma escape_cons_of_plain (hc : c ≠ quote) (hescape : c ≠ '\\') :
    escape quote (c :: cs) = c :: escape quote cs := by
  rw [escape, List.flatMap_cons, escapeChar, if_neg (not_or.mpr ⟨hc, hescape⟩)]
  rfl

/-- What is written may stand between quotes.

**Proof sketch.** Induction on the characters. Neither a quote nor a backslash is a line break, so
both may stand behind a backslash. -/
theorem escape_mem_quotable (hquote : isQuote quote = true) (cs : List Char) :
    escape quote cs ∈ quotable quote := by
  induction cs with
  | nil => exact nil_mem_quotable
  | cons c cs ih =>
    by_cases hc : c = quote ∨ c = '\\'
    · have hline : c ≠ '\n' := by
        rintro rfl
        rcases hc with rfl | hc
        · exact absurd hquote (by decide)
        · exact absurd hc (by decide)
      rw [escape_cons_of_escaped hc]
      exact cons_mem_quotable.mpr (.inr ⟨rfl, c, _, hline, ih, rfl⟩)
    · obtain ⟨hne, hescape⟩ := not_or.mp hc
      rw [escape_cons_of_plain hne hescape]
      exact cons_mem_quotable.mpr (.inl ⟨⟨hne, hescape⟩, ih⟩)

/-! ### Reading a text -/

/-- What a character stands for after a backslash. -/
def unescaped : Char → Char
  | 'n' => '\n'
  | 't' => '\t'
  | c => c

/-- What is escaped when it is written means itself after a backslash. -/
lemma unescaped_of_escaped (hquote : isQuote quote = true) (hc : c = quote ∨ c = '\\') :
    unescaped c = c := by
  rcases hc with rfl | rfl
  · rcases isQuote_iff.mp hquote with rfl | rfl <;> rfl
  · rfl

/-- A character other than a backslash means itself. -/
lemma unescape_cons (hc : c ≠ '\\') : unescape (c :: cs) = c :: unescape cs := by
  rw [unescape.eq_def]
  split <;> simp_all

/-- A backslash and the character after it mean one character. -/
lemma unescape_escaped (c : Char) (cs : List Char) :
    unescape ('\\' :: c :: cs) = unescaped c :: unescape cs := by
  by_cases hn : c = 'n'
  · rw [hn]
    rfl
  · by_cases ht : c = 't'
    · rw [ht]
      rfl
    · rw [unescape.eq_3 c cs (by simpa using hn) (by simpa using ht)]
      unfold unescaped
      split <;> simp_all

/-- A text that is written and read stays the same. -/
theorem unescape_escape (hquote : isQuote quote = true) (cs : List Char) :
    unescape (escape quote cs) = cs := by
  induction cs with
  | nil => rfl
  | cons c cs ih =>
    by_cases hc : c = quote ∨ c = '\\'
    · rw [escape_cons_of_escaped hc, unescape_escaped, unescaped_of_escaped hquote hc, ih]
    · obtain ⟨hne, hescape⟩ := not_or.mp hc
      rw [escape_cons_of_plain hne hescape, unescape_cons hescape, ih]

/-- The characters between quotes, read one by one. A backslash that escapes nothing cannot be
read. -/
def unescape? : List Char → Option (List Char)
  | [] => some []
  | ['\\'] => none
  | '\\' :: c :: cs => (unescape? cs).map (unescaped c :: ·)
  | c :: cs => (unescape? cs).map (c :: ·)

/-- The text between the first and the last character of a word, which has to have both. -/
def unquote? (w : List Char) : Option String :=
  if 2 ≤ w.length then (unescape? w.tail.dropLast).map String.ofList else none

/-- A character other than a backslash is read as itself. -/
lemma unescape?_cons (hc : c ≠ '\\') : unescape? (c :: cs) = (unescape? cs).map (c :: ·) := by
  rw [unescape?.eq_def]
  split <;> simp_all

/-- What may stand between quotes can be read: no backslash is the last character. -/
theorem unescape?_quotable :
    ∀ {body : List Char}, body ∈ quotable quote → unescape? body = some (unescape body)
  | [], _ => rfl
  | c :: body, h => by
    rcases cons_mem_quotable.mp h with ⟨⟨-, hescape⟩, hbody⟩ | ⟨rfl, d, u, -, hu, rfl⟩
    · rw [unescape?_cons hescape, unescape_cons hescape, unescape?_quotable hbody]
      rfl
    · rw [unescape?.eq_3, unescape_escaped, unescape?_quotable hu]
      rfl
termination_by body => body.length

/-- So can a word in quotes. -/
theorem unquote?_quoted (hbody : body ∈ quotable quote) :
    unquote? (quote :: (body ++ [quote])) = some (String.ofList (unescape body)) := by
  rw [unquote?, if_pos (by simp), List.tail_cons, List.dropLast_concat, unescape?_quotable hbody]
  rfl

/-! ### Lexemes before a quote -/

/-- A numeral takes no more characters than there are. -/
lemma numberLength_le_length (cs : List Char) : numberLength cs ≤ cs.length := by
  have hwhole := (List.takeWhile_prefix Char.isDigit (l := cs)).length_le
  unfold numberLength
  dsimp only
  split
  · rename_i tail htail
    have hfraction := (List.takeWhile_prefix Char.isDigit (l := tail)).length_le
    have hlength := congrArg List.length htail
    rw [List.length_drop, List.length_cons] at hlength
    split <;> omega
  · exact hwhole

/-- A number with a unit takes no more characters than there are. -/
lemma quantityLength_le_length (cs : List Char) : quantityLength cs ≤ cs.length := by
  have hle := numberLength_le_length cs
  unfold quantityLength
  dsimp only
  split
  · rename_i tail htail
    have hlength := congrArg List.length htail
    rw [List.length_drop, List.length_cons] at hlength
    split <;> omega
  · exact hle

/-- A name takes no more characters than there are. -/
lemma nameLength_le_length (cs : List Char) : nameLength cs ≤ cs.length := by
  fun_induction nameLength cs <;> simp_all

/-- Signs take no more characters than there are. -/
lemma signLength_le_length (c : Char) (cs : List Char) : signLength c cs ≤ cs.length := by
  rcases signLength_cases c cs with h | ⟨h, tail, -, rfl, -⟩
  · omega
  · rw [h]
    exact Nat.le_add_left _ _

section Quote

variable (hquote : isQuote quote = true)

include hquote

/-- A quote is no digit. -/
lemma isDigit_eq_false_of_isQuote : quote.isDigit = false := by
  rcases isQuote_iff.mp hquote with rfl | rfl <;> rfl

/-- Digits before a quote end at the quote. -/
lemma takeWhile_isDigit_append_quote (cs : List Char) :
    (cs ++ quote :: rest).takeWhile Char.isDigit = cs.takeWhile Char.isDigit := by
  have hnone : (quote :: rest).takeWhile Char.isDigit = [] :=
    List.takeWhile_cons_of_neg (by simp [isDigit_eq_false_of_isQuote hquote])
  rw [List.takeWhile_append, hnone]
  split
  · rename_i hall
    rw [List.append_nil, (List.takeWhile_prefix _).eq_of_length hall]
  · rfl

/-- A numeral ends before a quote.

**Proof sketch.** The digits stop at the quote, and so do those of a fraction. A quote is no dot. -/
lemma numberLength_append_quote (cs : List Char) :
    numberLength (cs ++ quote :: rest) = numberLength cs := by
  have hle := (List.takeWhile_prefix Char.isDigit (l := cs)).length_le
  have hdot : quote ≠ '.' := by rintro rfl; exact absurd hquote (by decide)
  unfold numberLength
  dsimp only
  rw [takeWhile_isDigit_append_quote hquote, List.drop_append_of_le_length hle]
  cases cs.drop (cs.takeWhile Char.isDigit).length with
  | nil => simp [hdot]
  | cons d ds =>
    by_cases hd : d = '.'
    · subst hd
      simp [takeWhile_isDigit_append_quote hquote]
    · simp [hd]

/-- A number with a unit ends before a quote. -/
lemma quantityLength_append_quote (cs : List Char) :
    quantityLength (cs ++ quote :: rest) = quantityLength cs := by
  have hunit : isUnit quote = false := by rcases isQuote_iff.mp hquote with rfl | rfl <;> rfl
  unfold quantityLength
  dsimp only
  rw [numberLength_append_quote hquote, List.drop_append_of_le_length (numberLength_le_length cs)]
  cases cs.drop (numberLength cs) with
  | nil => simp [hunit]
  | cons d ds => rfl

/-- A name ends before a quote.

**Proof sketch.** Along the recursion that goes through the name. A quote is no character of a name,
starts none behind a dot, and is no dot itself. -/
lemma nameLength_append_quote (cs : List Char) :
    nameLength (cs ++ quote :: rest) = nameLength cs := by
  have hstart : isNameStart quote = false := by
    rcases isQuote_iff.mp hquote with rfl | rfl <;> rfl
  have hchar : isNameChar quote = false := by rcases isQuote_iff.mp hquote with rfl | rfl <;> rfl
  have hdot : quote ≠ '.' := by rintro rfl; exact absurd hquote (by decide)
  have hend : nameLength (quote :: rest) = 0 := by
    rw [nameLength.eq_def]
    simp [hchar, hdot]
  fun_induction nameLength cs with
  | case1 => exact hend
  | case2 c cs hc ih => rw [List.cons_append, nameLength_cons hc, ih]
  | case3 c hc hdot d ds hd ih =>
    rw [eq_of_beq hdot, List.cons_append, List.cons_append, nameLength_dot hd]
    exact congrArg (· + 1) ih
  | case4 c hc hdot d ds hd =>
    rw [List.cons_append, List.cons_append, nameLength.eq_def]
    simp [hc, hdot, hd]
  | case5 c hc hdot =>
    rw [List.cons_append, List.nil_append, nameLength.eq_def]
    simp [hc, hdot, hstart]
  | case6 c cs hc hdot =>
    rw [List.cons_append, nameLength.eq_def]
    simp [hc, hdot]

/-- Signs end before a quote. -/
lemma signLength_append_quote (c : Char) (cs : List Char) :
    signLength c (cs ++ quote :: rest) = signLength c cs := by
  have hequal : quote ≠ '=' := by rintro rfl; exact absurd hquote (by decide)
  cases cs with
  | nil => simp [signLength, hequal]
  | cons d ds =>
    unfold signLength
    rw [List.cons_append]
    by_cases hd : d = '='
    · rw [hd]
      rfl
    · simp [hd]

end Quote

/-! ### Literals in formulas -/

/-- A lexeme that is a quote which is never closed, with what could stand inside. -/
def Lexeme.IsOpen (l : Lexeme) : Prop :=
  l.token? = none ∧ l.text.head?.any isQuote = true

/-- Whether a lexeme is a quote that is never closed can be decided. -/
instance : DecidablePred Lexeme.IsOpen :=
  fun _ => instDecidableAnd

/-- A lexeme at another place, with more characters before it. -/
def Lexeme.moved (l : Lexeme) (offset : Nat) : Lexeme :=
  { l with start := offset + l.start }

/-- A lexeme before a quote is the one that would be there without the quote, unless a text is
open.

**Proof sketch.** By the kind of token that the first character starts. Digits, names and signs end
before a quote, and a text that is not open has its quote before that. -/
lemma tailLength_append_quote (hquote : isQuote quote = true)
    (hclosed : Shape.ofFirst c = .text → tokenOf? c (cs.take (tailLength c cs)) ≠ none) :
    tailLength c cs ≤ cs.length ∧ tailLength c (cs ++ quote :: rest) = tailLength c cs := by
  cases hc : Shape.ofFirst c with
  | numeral =>
    have hle := quantityLength_le_length (c :: cs)
    simp only [tailLength_eq, hc, ← List.cons_append, quantityLength_append_quote hquote, and_true]
    exact Nat.sub_le_of_le_add hle
  | name =>
    simp only [tailLength_eq, hc]
    exact ⟨nameLength_le_length cs, nameLength_append_quote hquote cs⟩
  | text =>
    rcases text_cases hc cs with
      ⟨body, hbody, -, htake, -⟩ | ⟨body, -, after, rfl, -, hlength, hnone⟩
    · have hcs : cs = body ++ c :: cs.drop (tailLength c cs) := by
        conv_lhs => rw [← List.take_append_drop (tailLength c cs) cs, htake]
        rw [List.append_assoc, List.singleton_append]
      have hescape := ne_backslash_of_isQuote (isQuote_of_ofFirst hc)
      rw [hcs, List.append_assoc, List.cons_append]
      simp [tailLength_eq, hc, textLength_closed hescape hbody]
    · refine absurd hnone ?_
      rw [hlength, List.take_left] at hclosed
      exact hclosed hc
  | sign =>
    simp only [tailLength_eq, hc]
    exact ⟨signLength_le_length c cs, signLength_append_quote hquote c cs⟩

/-- Unless a text is open, what stands before a quote is cut as if nothing followed, and the quote
starts a lexeme.

**Proof sketch.** Along the recursion that cuts the characters. A blank stays a blank, and a lexeme
stays the same one (`tailLength_append_quote`), so the rest is cut as before. -/
theorem lexemesFrom_append_quote (hquote : isQuote quote = true)
    (hclosed : ∀ l ∈ lexemesFrom start cs, ¬ l.IsOpen) :
    lexemesFrom start (cs ++ quote :: rest) =
      lexemesFrom start cs ++ lexemesFrom (start + byteLength cs) (quote :: rest) := by
  fun_induction lexemesFrom start cs with
  | case1 start => rfl
  | case2 start c cs hc ih =>
    rw [List.cons_append, lexemesFrom, if_pos hc, ih hclosed, byteLength, Nat.add_assoc]
  | case3 start c cs hc tail ih =>
    rw [List.forall_mem_cons] at hclosed
    have htoken : Shape.ofFirst c = .text → tokenOf? c (cs.take (tailLength c cs)) ≠ none :=
      fun htext hnone => hclosed.1 ⟨hnone, isQuote_of_ofFirst htext⟩
    obtain ⟨hle, hlength⟩ : tailLength c cs ≤ cs.length ∧
        tailLength c (cs ++ quote :: rest) = tailLength c cs :=
      tailLength_append_quote hquote htoken
    have hbytes : byteLength (c :: tail) + byteLength (cs.drop (tailLength c cs)) =
        byteLength (c :: cs) := by
      rw [← byteLength_append, List.cons_append, List.take_append_drop]
    rw [List.cons_append, lexemesFrom, if_neg hc]
    simp only [hlength, List.take_append_of_le_length hle, List.drop_append_of_le_length hle]
    rw [ih hclosed.2, List.cons_append, Nat.add_assoc, hbytes]

/-- Where characters stand does not change how they are cut. -/
lemma lexemesFrom_add (offset start : Nat) (cs : List Char) :
    lexemesFrom (offset + start) cs = (lexemesFrom start cs).map (·.moved offset) := by
  fun_induction lexemesFrom start cs with
  | case1 start => rw [lexemesFrom, List.map_nil]
  | case2 start c cs hc ih => rw [lexemesFrom, if_pos hc, Nat.add_assoc, ih]
  | case3 start c cs hc tail ih =>
    rw [lexemesFrom, if_neg hc, List.map_cons, ← ih, ← Nat.add_assoc]
    rfl

/-- A word in quotes is a lexeme, whatever follows it.

**Proof sketch.** The quote starts a text, which is taken up to the quote that closes it
(`textLength_closed`). -/
lemma lexemesFrom_quoted (hquote : isQuote quote = true) (hbody : body ∈ quotable quote)
    (start : Nat) (rest : List Char) :
    lexemesFrom start (quote :: (body ++ quote :: rest)) =
      ⟨start, quote :: (body ++ [quote]), some (.text (String.ofList (unescape body)))⟩ ::
        lexemesFrom (start + byteLength (quote :: (body ++ [quote]))) rest := by
  have hshape : Shape.ofFirst quote = .text := by
    rcases isQuote_iff.mp hquote with rfl | rfl <;> rfl
  have hblank : ¬ isBlank quote = true := by rcases isQuote_iff.mp hquote with rfl | rfl <;> decide
  have hlength (after : List Char) :
      textLength quote (body ++ quote :: after) = (body.length + 1, true) :=
    textLength_closed (ne_backslash_of_isQuote hquote) hbody
  rw [lexemesFrom, if_neg hblank]
  simp only [tailLength_eq, hshape, hlength, List.take_length_add_append, List.take_succ_cons,
    List.take_zero, List.drop_length_add_append, List.drop_succ_cons, List.drop_zero]
  simp only [tokenOf?_eq, hshape, hlength, if_true, Token.ofQuoted, List.dropLast_concat]

/-- After a part of a formula that leaves no text open, a word in quotes is a lexeme, whatever
follows it. -/
lemma lexemes_quoted (hquote : isQuote quote = true) (hbody : body ∈ quotable quote)
    {before : String} (hclosed : ∀ l ∈ lexemes before, ¬ l.IsOpen) (after : String) :
    lexemes (before ++ String.ofList (quote :: (body ++ [quote])) ++ after) =
      lexemes before ++
        ⟨before.utf8ByteSize, quote :: (body ++ [quote]),
          some (.text (String.ofList (unescape body)))⟩ ::
        (lexemes after).map
          (·.moved (before ++ String.ofList (quote :: (body ++ [quote]))).utf8ByteSize) := by
  have hchars : (before ++ String.ofList (quote :: (body ++ [quote])) ++ after).toList =
      before.toList ++ quote :: (body ++ quote :: after.toList) := by
    simp
  unfold lexemes at hclosed ⊢
  rw [hchars, lexemesFrom_append_quote hquote hclosed, lexemesFrom_quoted hquote hbody,
    Nat.zero_add, utf8ByteSize_eq, utf8ByteSize_eq, String.toList_append, String.toList_ofList,
    byteLength_append]
  exact congrArg (_ ++ _ :: ·) (lexemesFrom_add _ 0 _)

/-- Every text can be written as a literal: between quotes with a backslash before each quote and
each backslash, it is one lexeme that spells the text, wherever in a formula it stands, provided
that no text is open there. And whatever stands in quotes as texts do can be read: no backslash in
it is without a character to escape, so it is a lexeme there too, that spells what is read. -/
theorem literal_lexes (hquote : isQuote quote = true) :
    (∀ s before after : String, (∀ l ∈ lexemes before, ¬ l.IsOpen) →
      lexemes (before ++ literal quote s ++ after) =
        lexemes before ++
          ⟨before.utf8ByteSize, (literal quote s).toList, some (.text s)⟩ ::
          (lexemes after).map (·.moved (before ++ literal quote s).utf8ByteSize)) ∧
    ∀ w ∈ quoted quote, ∃ value, unquote? w = some value ∧
      ∀ before after : String, (∀ l ∈ lexemes before, ¬ l.IsOpen) →
        lexemes (before ++ String.ofList w ++ after) =
          lexemes before ++
            ⟨before.utf8ByteSize, w, some (.text value)⟩ ::
            (lexemes after).map (·.moved (before ++ String.ofList w).utf8ByteSize) := by
  constructor
  · intro s before after hclosed
    have h := lexemes_quoted hquote (escape_mem_quotable hquote s.toList) hclosed after
    rw [unescape_escape hquote, String.ofList_toList] at h
    rw [literal, String.toList_ofList]
    exact h
  · intro w hw
    obtain ⟨body, hbody, rfl⟩ := mem_quoted.mp hw
    exact ⟨_, unquote?_quoted hbody,
      fun before after hclosed => lexemes_quoted hquote hbody hclosed after⟩

/-- A text with both quotes, a backslash before a letter, a line break and a backslash at its end,
written into a formula whose other texts are closed. -/
theorem note_lexes :
    let note := "say \"it's\" \\n\n\\"
    isQuote '\'' = true ∧ (∀ l ∈ lexemes "CAT(\"note: \", ", ¬ l.IsOpen) ∧
      (lexemes ("CAT(\"note: \", " ++ literal '\'' note ++ ")")).map Lexeme.token? =
        [some (.ident "CAT"), some .openParen, some (.text "note: "), some .comma,
          some (.text note), some .closeParen] := by
  intro note
  have hquote : isQuote '\'' = true := rfl
  have hclosed : ∀ l ∈ lexemes "CAT(\"note: \", ", ¬ l.IsOpen := by decide +kernel
  refine ⟨hquote, hclosed, ?_⟩
  rw [(literal_lexes hquote).1 note _ _ hclosed]
  decide +kernel

end Cohort.Formula
