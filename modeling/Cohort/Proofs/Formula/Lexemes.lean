import Cohort.Proofs.Formula.Longest
set_option relaxedAutoImplicit false
set_option autoImplicit false

/-!
# Lexemes cover formulas

A formula is its lexemes in their order with blanks between them: each lexeme is as long as the
longest word at its place, or invalid if there is none.

## Main definitions

* `Cohort.Formula.Lexeme.IsLongest` — what a lexeme is, given what follows it.
* `Cohort.Formula.Cut` — how characters are cut into lexemes.
* `Cohort.Formula.Covers` — what the lexemes of a formula are.

## Main results

* `Cohort.Formula.isLongest_cut` — the lexeme of a character is the longest one there.
* `Cohort.Formula.lexemesFrom_cut` — characters are cut into their lexemes.
* `Cohort.Formula.lexemes_cover` — lexemes cover their formula.
-/

namespace Cohort.Formula

/-! ### One lexeme -/

/-- The text of a token is a word of it, and no word at its place is longer. -/
structure Spells (token : Token) (text after : List Char) : Prop where
  mem_words : text ∈ token.words
  longest : ∀ (other : Token) (w : List Char), w ∈ other.words → w <+: text ++ after →
    w.length ≤ text.length

/-- An invalid text is where no word is. It is one character, or a quote that is never closed with
what could stand inside. -/
structure Invalid (text after : List Char) : Prop where
  no_word : ∀ (other : Token) (w : List Char), w ∈ other.words → ¬ w <+: text ++ after
  extent : (∃ c, isBlank c = false ∧ isQuote c = false ∧ text = [c]) ∨
    ∃ quote body, isQuote quote = true ∧ body ∈ quotable quote ∧ text = quote :: body ∧
      BreaksOff after

/-- A lexeme is the longest one at its place: it spells its token, or is invalid without one. -/
def Lexeme.IsLongest (l : Lexeme) (after : List Char) : Prop :=
  match l.token? with
  | some token => Spells token l.text after
  | none => Invalid l.text after

section Words

variable {c : Char} {cs w : List Char} {token : Token}

/-- A word starts with a character that tells the kind of its token. -/
lemma shape_eq_of_isPrefix (hw : w ∈ token.words) (h : w <+: c :: cs) :
    token.shape = Shape.ofFirst c := by
  obtain ⟨d, u, rfl, hd⟩ := Token.exists_cons_of_mem_words hw
  obtain ⟨rfl, -⟩ := List.cons_prefix_cons.mp h
  exact hd.symm

/-- The length of what follows the first character, by the kind of token that it starts. -/
lemma tailLength_eq (c : Char) (cs : List Char) : tailLength c cs =
    match Shape.ofFirst c with
    | .numeral => quantityLength (c :: cs) - 1
    | .name => nameLength cs
    | .text => (textLength c cs).1
    | .sign => signLength c cs := by
  unfold tailLength Shape.ofFirst
  split_ifs <;> rfl

/-- The token of characters, by the kind of token that the first one starts. -/
lemma tokenOf?_eq (c : Char) (cs : List Char) : tokenOf? c cs =
    match Shape.ofFirst c with
    | .numeral => some (.ofDigits (c :: cs))
    | .name => some (.ident (String.ofList (c :: cs)))
    | .text => if (textLength c cs).2 then some (.ofQuoted cs) else none
    | .sign => Token.ofSigns? (c :: cs) := by
  unfold tokenOf? Shape.ofFirst
  split_ifs <;> rfl

/-- What starts a text is a quote. -/
lemma isQuote_of_ofFirst (hc : Shape.ofFirst c = .text) : isQuote c = true := by
  simpa only [hc] using Shape.ofFirst_spec c

/-- A token of the kind of texts is a text. -/
lemma exists_eq_text (h : token.shape = .text) : ∃ value, token = .text value := by
  cases token with
  | text value => exact ⟨value, rfl⟩
  | _ => cases h

/-- A text is in the quotes that it starts with. -/
lemma exists_of_mem_text {value : String} (hw : w ∈ (Token.text value).words) (h : w <+: c :: cs) :
    ∃ body ∈ quotable c, ∃ after, w = c :: (body ++ [c]) ∧ cs = body ++ c :: after := by
  obtain ⟨quote, hquoted⟩ : ∃ quote, w ∈ quoted quote :=
    ((Language.mem_add _ _ _).mp hw).elim (⟨_, ·⟩) (⟨_, ·⟩)
  obtain ⟨body, hbody, rfl⟩ := mem_quoted.mp hquoted
  obtain ⟨rfl, after, rfl⟩ := List.cons_prefix_cons.mp h
  exact ⟨body, hbody, after, rfl, by rw [List.append_assoc, List.singleton_append]⟩

/-- A word at the place of a lexeme is not longer.

**Proof sketch.** The first character tells the kind of the token, and by the kind the word is
compared with what is taken: digits with a unit, a name, a text up to its quote, or signs. -/
theorem length_le_tailLength (hw : w ∈ token.words) (h : w <+: c :: cs) :
    w.length ≤ tailLength c cs + 1 := by
  have hshape := shape_eq_of_isPrefix hw h
  rw [tailLength_eq, ← hshape]
  cases token with
  | duration _ =>
    exact Nat.le_add_of_sub_le (Nat.sub_le_sub_right (length_le_quantityLength (.inr hw) h) 1)
  | number _ =>
    exact Nat.le_add_of_sub_le (Nat.sub_le_sub_right (length_le_quantityLength (.inl hw) h) 1)
  | ident _ =>
    obtain ⟨d, u, rfl, -⟩ := Token.exists_cons_of_mem_words hw
    obtain ⟨-, hu⟩ := List.cons_prefix_cons.mp h
    exact Nat.succ_le_succ (length_le_nameLength (cons_mem_names.mp hw).2 hu)
  | text _ =>
    obtain ⟨body, hbody, after, rfl, rfl⟩ := exists_of_mem_text hw h
    have hquote := isQuote_of_ofFirst hshape.symm
    simp [Token.shape, textLength_closed (ne_backslash_of_isQuote hquote) hbody]
  | _ => exact length_le_signLength (ofSigns?_eq_some.mpr ⟨rfl, hw⟩) h

/-- What a quote opens is closed, and a text then; or it breaks off without a token.

**Proof sketch.** The characters behind the quote are split at the first quote that closes the text,
or where the text breaks off (`exists_quotable_append`). What is taken ends there. -/
lemma text_cases (hc : Shape.ofFirst c = .text) (cs : List Char) :
    (∃ body ∈ quotable c, ∃ value, cs.take (tailLength c cs) = body ++ [c] ∧
      tokenOf? c (body ++ [c]) = some (.text value)) ∨
    ∃ body ∈ quotable c, ∃ rest, cs = body ++ rest ∧ BreaksOff rest ∧
      tailLength c cs = body.length ∧ tokenOf? c body = none := by
  obtain ⟨body, hbody, rest, rfl, ⟨after, rfl⟩ | hrest⟩ := exists_quotable_append c cs
  · have hclosed (ds : List Char) : textLength c (body ++ c :: ds) = (body.length + 1, true) :=
      textLength_closed (ne_backslash_of_isQuote (isQuote_of_ofFirst hc)) hbody
    refine .inl ⟨body, hbody, String.ofList (unescape (body ++ [c]).dropLast), ?_, ?_⟩
    · simp only [tailLength_eq, hc, hclosed, List.take_length_add_append, List.take_succ_cons,
        List.take_zero]
    · simp only [tokenOf?_eq, hc, hclosed, if_true]
      rfl
  · refine .inr ⟨body, hbody, rest, rfl, hrest, ?_, ?_⟩
    · simp only [tailLength_eq, hc, textLength_broken hbody hrest]
    · have hopen := textLength_broken hbody .atEnd
      rw [List.append_nil] at hopen
      simp [tokenOf?_eq, hc, hopen]

/-- What is taken for a lexeme is a word of the token that it spells.

**Proof sketch.** By the kind of token that the first character starts. For each kind, what is taken
is a word of this kind, and the token is what it means. -/
theorem mem_words_of_tokenOf? (h : tokenOf? c (cs.take (tailLength c cs)) = some token) :
    c :: cs.take (tailLength c cs) ∈ token.words := by
  cases hc : Shape.ofFirst c with
  | numeral =>
    have hdigit : c.isDigit = true := by simpa only [hc] using Shape.ofFirst_spec c
    have htake : c :: cs.take (quantityLength (c :: cs) - 1) =
        (c :: cs).take (quantityLength (c :: cs)) := by
      rw [← List.take_succ_cons, Nat.sub_add_cancel (quantityLength_pos hdigit)]
    simp only [tailLength_eq, tokenOf?_eq, hc, htake] at h ⊢
    obtain rfl := Option.some.inj h
    exact take_quantityLength_mem hdigit
  | name =>
    simp only [tailLength_eq, tokenOf?_eq, hc] at h ⊢
    obtain rfl := Option.some.inj h
    have hstart : isNameStart c = true := by simpa only [hc] using Shape.ofFirst_spec c
    exact cons_mem_names.mpr ⟨hstart, take_nameLength_mem cs⟩
  | text =>
    rcases text_cases hc cs with
      ⟨body, hbody, value, htake, hvalue⟩ | ⟨body, -, rest, rfl, -, hlength, hnone⟩
    · rw [htake] at h ⊢
      obtain rfl := Option.some.inj (hvalue.symm.trans h)
      have hquoted := mem_quoted.mpr ⟨body, hbody, rfl⟩
      rcases isQuote_iff.mp (isQuote_of_ofFirst hc) with rfl | rfl
      · exact .inl hquoted
      · exact .inr hquoted
    · rw [hlength, List.take_left, hnone] at h
      cases h
  | sign =>
    simp only [tailLength_eq, tokenOf?_eq, hc] at h ⊢
    exact (ofSigns?_eq_some.mp h).2

/-- A lexeme that spells nothing is where no word is.

**Proof sketch.** Digits and names always spell a token. A text spells none if it is never closed,
and a word there would close it; signs spell none if they are not in the table of signs. -/
theorem invalid_of_tokenOf?_eq_none (hblank : isBlank c = false)
    (h : tokenOf? c (cs.take (tailLength c cs)) = none) :
    Invalid (c :: cs.take (tailLength c cs)) (cs.drop (tailLength c cs)) := by
  have hall : c :: cs.take (tailLength c cs) ++ cs.drop (tailLength c cs) = c :: cs := by
    rw [List.cons_append, List.take_append_drop]
  cases hc : Shape.ofFirst c with
  | numeral =>
    rw [tokenOf?_eq, hc] at h
    cases h
  | name =>
    rw [tokenOf?_eq, hc] at h
    cases h
  | text =>
    rcases text_cases hc cs with
      ⟨body, -, value, htake, hvalue⟩ | ⟨body, hbody, rest, rfl, hrest, hlength, -⟩
    · rw [htake, hvalue] at h
      cases h
    · rw [hlength, List.take_left, List.drop_left] at hall ⊢
      refine ⟨fun other w hw hfront => ?_,
        .inr ⟨c, body, isQuote_of_ofFirst hc, hbody, rfl, hrest⟩⟩
      rw [hall] at hfront
      obtain ⟨value, rfl⟩ := exists_eq_text ((shape_eq_of_isPrefix hw hfront).trans hc)
      -- A text there would be closed.
      obtain ⟨body', hbody', after, -, hcs⟩ := exists_of_mem_text hw hfront
      have hopen := textLength_broken hbody hrest
      rw [hcs, textLength_closed (ne_backslash_of_isQuote (isQuote_of_ofFirst hc)) hbody'] at hopen
      cases (Prod.mk.inj hopen).2
  | sign =>
    simp only [tailLength_eq, tokenOf?_eq, hc] at h hall ⊢
    have hquote : isQuote c = false := by simpa only [hc] using Shape.ofFirst_spec c
    refine ⟨fun other w hw hfront => ?_, .inl ⟨c, hblank, hquote, ?_⟩⟩
    · rw [hall] at hfront
      have hshape := (shape_eq_of_isPrefix hw hfront).trans hc
      exact not_prefix_of_ofSigns?_eq_none h (ofSigns?_eq_some.mpr ⟨hshape, hw⟩) hfront
    · rcases signLength_cases c cs with hlength | ⟨hlength, rest, other, rfl, hpair⟩
      · rw [hlength, List.take_zero]
      · rw [hlength] at h
        exact absurd (hpair.symm.trans h) (Option.some_ne_none _)

/-- The lexeme of a character is the longest one there.

**Proof sketch.** A token is one of the words of its shape, and no word at the front is longer than
what the shape takes. Without a token there is none (`invalid_of_tokenOf?_eq_none`). -/
theorem isLongest_cut (hblank : isBlank c = false) (start : Nat) (cs : List Char) :
    Lexeme.IsLongest
      ⟨start, c :: cs.take (tailLength c cs), tokenOf? c (cs.take (tailLength c cs))⟩
      (cs.drop (tailLength c cs)) := by
  unfold Lexeme.IsLongest
  dsimp only
  cases htoken : tokenOf? c (cs.take (tailLength c cs)) with
  | none => exact invalid_of_tokenOf?_eq_none hblank htoken
  | some token =>
    refine ⟨mem_words_of_tokenOf? htoken, fun other w hw h => ?_⟩
    rw [List.cons_append, List.take_append_drop] at h
    have hle := length_le_tailLength hw h
    have hall := h.length_le
    rw [List.length_cons] at hall
    rw [List.length_cons, List.length_take]
    omega

end Words

/-! ### Cuts -/

/-- The bytes of characters. -/
def bytes (cs : List Char) : List UInt8 :=
  cs.flatMap String.utf8EncodeChar

/-- The bytes are as many as the characters take. -/
lemma length_bytes (cs : List Char) : (bytes cs).length = byteLength cs := by
  induction cs with
  | nil => rfl
  | cons c cs ih =>
    rw [bytes, List.flatMap_cons, List.length_append, String.length_utf8EncodeChar]
    exact congrArg (c.utf8Size + ·) ih

/-- Bytes of characters in a row are in a row. -/
lemma bytes_append (cs ds : List Char) : bytes (cs ++ ds) = bytes cs ++ bytes ds :=
  List.flatMap_append

/-- Characters in a row take as many bytes as they take apart. -/
lemma byteLength_append (cs ds : List Char) :
    byteLength (cs ++ ds) = byteLength cs + byteLength ds := by
  rw [← length_bytes, bytes_append, List.length_append, length_bytes, length_bytes]

/-- A word takes at least one byte. -/
lemma byteLength_pos {cs : List Char} (h : cs ≠ []) : 0 < byteLength cs := by
  cases cs with
  | nil => exact absurd rfl h
  | cons c cs => exact Nat.add_pos_left c.utf8Size_pos _

/-- The bytes of blanks: a space, a tab, a carriage return, a line feed and a form feed. -/
def blankBytes : List UInt8 :=
  [0x20, 0x09, 0x0d, 0x0a, 0x0c]

/-- A blank is written with the bytes of blanks only. -/
lemma mem_blankBytes {c : Char} {b : UInt8} (hc : isBlank c = true)
    (hb : b ∈ String.utf8EncodeChar c) : b ∈ blankBytes := by
  simp only [isBlank, Bool.or_eq_true, beq_iff_eq] at hc
  rcases hc with (((rfl | rfl) | rfl) | rfl) | rfl <;>
    (obtain rfl := List.mem_singleton.mp hb; decide)

/-- Characters after `start` bytes are cut into lexemes: there are blanks between them, and each is
the longest one at its place. -/
inductive Cut : Nat → List Char → List Lexeme → Prop where
  | done (start : Nat) : Cut start [] []
  | blank {start : Nat} {c : Char} {cs : List Char} {ls : List Lexeme} :
      isBlank c = true → Cut (start + c.utf8Size) cs ls → Cut start (c :: cs) ls
  | lexeme {l : Lexeme} {after : List Char} {ls : List Lexeme} :
      l.text ≠ [] → l.IsLongest after → Cut l.stop after ls →
        Cut l.start (l.text ++ after) (l :: ls)

/-- Characters are cut into their lexemes. -/
theorem lexemesFrom_cut (start : Nat) (cs : List Char) : Cut start cs (lexemesFrom start cs) := by
  fun_induction lexemesFrom start cs with
  | case1 start => exact .done start
  | case2 start c cs hc ih => exact .blank hc ih
  | case3 start c cs hc tail ih =>
    have hcut := isLongest_cut (eq_false_of_ne_true hc) start cs
    have h := Cut.lexeme (List.cons_ne_nil _ _) hcut ih
    rwa [List.cons_append, List.take_append_drop] at h

namespace Cut

variable {start : Nat} {cs : List Char} {ls : List Lexeme}

/-- There are no more lexemes than characters. -/
theorem length_le (h : Cut start cs ls) : ls.length ≤ cs.length := by
  induction h with
  | done => exact le_rfl
  | blank _ _ ih => exact Nat.le_succ_of_le ih
  | lexeme hne _ _ ih =>
    have hpos := List.length_pos_of_ne_nil hne
    rw [List.length_cons, List.length_append]
    omega

/-- Each lexeme is a part of the characters, at its place and the longest one there.

**Proof sketch.** Induction on the lexemes. One blank or one lexeme is taken from the front, and the
places behind it move by its length. -/
theorem exists_append (h : Cut start cs ls) : ∀ l ∈ ls, l.text ≠ [] ∧ ∃ before after,
    cs = before ++ l.text ++ after ∧ l.start = start + byteLength before ∧ l.IsLongest after := by
  induction h with
  | done => nofun
  | blank _ _ ih =>
    intro l hl
    obtain ⟨hne, before, after, rfl, hstart, hlongest⟩ := ih l hl
    exact ⟨hne, _ :: before, after, rfl, hstart.trans (Nat.add_assoc _ _ _), hlongest⟩
  | @lexeme first rest ls hne hlongest _ ih =>
    refine List.forall_mem_cons.mpr ⟨⟨hne, [], rest, rfl, rfl, hlongest⟩, fun l hl => ?_⟩
    obtain ⟨hne, before, after, rfl, hstart, hlongest⟩ := ih l hl
    refine ⟨hne, first.text ++ before, after, ?_, ?_, hlongest⟩
    · simp only [List.append_assoc]
    · rw [hstart, Lexeme.stop, byteLength_append, Nat.add_assoc]

/-- Each lexeme ends before the next ones start.

**Proof sketch.** Induction on the lexemes. Those behind one of them are in what is left, which
starts where it stops (`exists_append`). -/
theorem pairwise (h : Cut start cs ls) : ls.Pairwise (·.stop ≤ ·.start) := by
  induction h with
  | done => exact .nil
  | blank _ _ ih => exact ih
  | lexeme _ _ hcut ih =>
    refine List.pairwise_cons.mpr ⟨fun l hl => ?_, ih⟩
    obtain ⟨-, before, -, -, hstart, -⟩ := hcut.exists_append l hl
    rw [hstart]
    exact Nat.le_add_right _ _

/-- A byte is in a lexeme, or it is a blank.

**Proof sketch.** Induction on the cut. A byte is in the blank or in the lexeme at the front, or it
stands as many places further on in the rest. -/
theorem mem_or_blank (h : Cut start cs ls) : ∀ (i : Nat) (b : UInt8), (bytes cs)[i]? = some b →
    (∃ l ∈ ls, l.start ≤ start + i ∧ start + i < l.stop) ∨ b ∈ blankBytes := by
  induction h with
  | done => nofun
  | @blank start c cs ls hc _ ih =>
    intro i b hb
    rw [bytes, List.flatMap_cons, List.getElem?_append, String.length_utf8EncodeChar] at hb
    split_ifs at hb with hi
    · exact .inr (mem_blankBytes hc (List.mem_of_getElem? hb))
    · have hplace : start + c.utf8Size + (i - c.utf8Size) = start + i := by omega
      rw [← hplace]
      exact ih (i - c.utf8Size) b hb
  | @lexeme first rest ls _ _ _ ih =>
    intro i b hb
    rw [bytes_append, List.getElem?_append, length_bytes] at hb
    split_ifs at hb with hi
    · exact .inl ⟨first, List.mem_cons_self, Nat.le_add_right _ _, Nat.add_lt_add_left hi _⟩
    · have hplace : first.stop + (i - byteLength first.text) = first.start + i := by
        rw [Lexeme.stop]
        omega
      rw [← hplace]
      exact (ih (i - byteLength first.text) b hb).imp_left
        fun ⟨l, hl, hspan⟩ => ⟨l, List.mem_cons_of_mem _ hl, hspan⟩

end Cut

/-! ### Formulas -/

/-- The places of lexemes in a formula. Each is the longest one at its place, and there are only
blanks between them. -/
structure Covers (source : String) (ls : List Lexeme) : Prop where
  length_le : ls.length ≤ source.length
  start_lt_stop : ∀ l ∈ ls, l.start < l.stop
  start_isValid : ∀ l ∈ ls, String.Pos.Raw.IsValid source ⟨l.start⟩
  stop_isValid : ∀ l ∈ ls, String.Pos.Raw.IsValid source ⟨l.stop⟩
  pairwise : ls.Pairwise (·.stop ≤ ·.start)
  mem_or_blank : ∀ (i : Nat) (h : i < source.toByteArray.size),
    (∃ l ∈ ls, l.start ≤ i ∧ i < l.stop) ∨ source.toByteArray[i] ∈ blankBytes
  isLongest : ∀ l ∈ ls, ∃ before after, source.toList = before ++ l.text ++ after ∧
    l.start = byteLength before ∧ l.IsLongest after

/-- The bytes of a source are those of its characters. -/
lemma toByteArray_eq (source : String) : source.toByteArray = (bytes source.toList).toByteArray :=
  String.utf8Encode_toList.symm

/-- A source takes as many bytes as its characters. -/
lemma utf8ByteSize_eq (source : String) : source.utf8ByteSize = byteLength source.toList := by
  rw [← String.size_toByteArray, toByteArray_eq, List.size_toByteArray, length_bytes]

/-- A source ends after the bytes of its characters. -/
lemma rawEndPos_ofList (cs : List Char) : (String.ofList cs).rawEndPos = ⟨byteLength cs⟩ := by
  have hsize := utf8ByteSize_eq (String.ofList cs)
  rw [String.toList_ofList] at hsize
  exact congrArg String.Pos.Raw.mk hsize

/-- Between characters is a character boundary. -/
lemma isValid_byteLength {source : String} {before after : List Char}
    (h : source.toList = before ++ after) :
    String.Pos.Raw.IsValid source ⟨byteLength before⟩ := by
  refine String.Pos.Raw.isValid_iff_exists_append.mpr
    ⟨String.ofList before, String.ofList after, ?_, (rawEndPos_ofList before).symm⟩
  rw [← String.ofList_append, ← h, String.ofList_toList]

/-- The lexemes of a formula cover it.

**Proof sketch.** The source is cut into lexemes with blanks between them (`lexemesFrom_cut`), and
the properties of a cut give those of the cover: where a lexeme starts and stops, a character
does. -/
theorem lexemes_cover (source : String) : Covers source (lexemes source) := by
  have hcut := lexemesFrom_cut 0 source.toList
  have hplace : ∀ l ∈ lexemes source, l.text ≠ [] ∧ ∃ before after,
      source.toList = before ++ l.text ++ after ∧ l.start = byteLength before ∧
        l.IsLongest after := by
    intro l hl
    obtain ⟨hne, before, after, hsource, hstart, hlongest⟩ := hcut.exists_append l hl
    exact ⟨hne, before, after, hsource, hstart.trans (Nat.zero_add _), hlongest⟩
  refine
    { length_le := hcut.length_le.trans_eq String.length_toList
      pairwise := hcut.pairwise
      isLongest := fun l hl => (hplace l hl).2
      start_lt_stop := fun l hl => Nat.lt_add_of_pos_right (byteLength_pos (hplace l hl).1)
      start_isValid := fun l hl => ?_
      stop_isValid := fun l hl => ?_
      mem_or_blank := fun i hi => ?_ }
  · obtain ⟨-, before, after, hsource, hstart, -⟩ := hplace l hl
    rw [hstart]
    exact isValid_byteLength (hsource.trans (List.append_assoc _ _ _))
  · obtain ⟨-, before, after, hsource, hstart, -⟩ := hplace l hl
    rw [Lexeme.stop, hstart, ← byteLength_append]
    exact isValid_byteLength hsource
  · have hbyte : (bytes source.toList)[i]? = some source.toByteArray[i] := by
      simp only [toByteArray_eq] at hi ⊢
      rw [List.getElem_toByteArray]
      exact List.getElem?_eq_getElem _
    have h := hcut.mem_or_blank i _ hbyte
    rwa [Nat.zero_add] at h

/-- A dotted name, a sign of two characters and a length of time are not split; a quote that is
never closed takes the letter of two bytes after it. -/
example : (lexemes "a.b <= 1.5d 'é").map (fun l => (l.start, l.stop, l.token?.isSome)) =
    [(0, 3, true), (4, 6, true), (7, 11, true), (12, 15, false)] := by
  decide +kernel

end Cohort.Formula
