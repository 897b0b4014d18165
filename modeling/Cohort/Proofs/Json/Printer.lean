import Mathlib.Data.Int.Basic
import Cohort.Json.Printer
import Cohort.Proofs.Decimal.Text
set_option relaxedAutoImplicit false
set_option autoImplicit false

/-!
# Values and their JSON texts

A JSON value is identified by its text. More than that, two texts of values that are followed by
anything that may follow a value, such as a comma or a closing bracket, are the same all together
only if the values are the same and so is what follows them. So values inside others can be told
apart one after the other.

## Main definitions

* `Cohort.Json.Ends` — what may follow a value.
* `Cohort.Json.readEscaped?` — a character inside a JSON string.
* `Cohort.Json.Kind` — the kinds of values.

## Main results

* `Cohort.Json.Number.write_inj` — a number is identified by its text.
* `Cohort.Json.compress_append_inj` — a value in front of others is identified by its text.
* `Cohort.Json.compress_inj` — a value is identified by its text.
-/

namespace Cohort.Json

/-- If two texts consist of certain characters and go on with others, the parts are the same if the
texts are.

**Proof sketch.** Induction on the first part. Where one part ends and the other does not, the next
character would be one of these characters and none of them. -/
lemma append_inj_of_stop {p : Char → Prop} {cs ds rest rest' : List Char}
    (hcs : ∀ c ∈ cs, p c) (hds : ∀ c ∈ ds, p c) (hrest : ∀ c ∈ rest.head?, ¬ p c)
    (hrest' : ∀ c ∈ rest'.head?, ¬ p c) (h : cs ++ rest = ds ++ rest') :
    cs = ds ∧ rest = rest' := by
  induction cs generalizing ds with
  | nil =>
    cases ds with
    | nil => exact ⟨rfl, h⟩
    | cons d ds =>
      refine absurd (hds d List.mem_cons_self) (hrest d ?_)
      rw [← List.nil_append rest, h]
      rfl
  | cons c cs ih =>
    cases ds with
    | nil =>
      refine absurd (hcs c List.mem_cons_self) (hrest' c ?_)
      rw [← List.nil_append rest', ← h]
      rfl
    | cons d ds =>
      obtain ⟨rfl, htail⟩ := List.cons.inj h
      obtain ⟨rfl, hrests⟩ := ih (fun c hc => hcs c (List.mem_cons_of_mem _ hc))
        (fun c hc => hds c (List.mem_cons_of_mem _ hc)) htail
      exact ⟨rfl, hrests⟩

/-! ### Numbers -/

namespace Number

open Decimal.Literal (IsNumeral)

/-- A whole number is written with its digits, and with a minus sign before them if it is
negative. -/
lemma toList_toString (n : ℤ) : (toString n).toList =
    (if n < 0 then ['-'] else []) ++ Nat.toDigits 10 n.natAbs := by
  rw [Int.toString_eq_repr, Int.repr_eq_if]
  by_cases h : 0 ≤ n
  · have habs : n.toNat = n.natAbs := by omega
    rw [if_pos h, if_neg (by omega), habs, Nat.toList_repr, List.nil_append]
  · have habs : (-n).toNat = n.natAbs := by omega
    rw [if_neg h, if_pos (by omega), habs, String.toList_append, Nat.toList_repr]
    rfl

/-- The text of a whole number consists of digits and a sign. -/
lemma isDigit_of_mem_toString {n : ℤ} {c : Char} (h : c ∈ (toString n).toList) :
    c.isDigit = true ∨ c = '-' := by
  rw [toList_toString] at h
  rcases List.mem_append.1 h with h | h
  · split at h
    case isTrue => exact .inr (List.mem_singleton.1 h)
    case isFalse => cases h
  · exact .inl (Nat.isDigit_of_mem_toDigits (by decide) (by decide) h)

/-- A whole number is identified by its text.

**Proof sketch.** The text of a whole number is read as a literal, which has its sign and its
digits. -/
lemma toString_inj {n m : ℤ} (h : toString n = toString m) : n = m := by
  have hread : ∀ k : ℤ, Decimal.readLiteral? (toString k).toList =
      some ⟨decide (k < 0), Nat.toDigits 10 k.natAbs, [], 0⟩ := by
    intro k
    have hspelled : (Decimal.Literal.mk (decide (k < 0)) (Nat.toDigits 10 k.natAbs) [] 0).Spelled
        (Nat.toDigits 10 k.natAbs) :=
      ⟨⟨[], by simp [Decimal.point], .absent⟩, List.ne_nil_of_length_pos Nat.length_toDigits_pos,
        fun _ hc => Nat.isDigit_of_mem_toDigits (by decide) (by decide) hc, nofun⟩
    rw [toList_toString, ← hspelled.readLiteral?]
    simp
  have hliterals := hread n
  rw [h, hread m] at hliterals
  obtain ⟨hsign, hdigits, -⟩ := Decimal.Literal.mk.inj (Option.some.inj hliterals)
  have hmagnitude : m.natAbs = n.natAbs := by
    rw [← Decimal.ofDigits_toDigits m.natAbs, hdigits, Decimal.ofDigits_toDigits]
  have hnegative : m < 0 ↔ n < 0 := decide_eq_decide.1 hsign
  omega

/-- The text of a number consists of characters of numbers. -/
lemma isNumeral_of_mem_write (n : Number) : ∀ c ∈ n.write.toList, IsNumeral c := by
  cases n with
  | integer n _ =>
    intro c hc
    rcases isDigit_of_mem_toString hc with h | rfl
    · exact .inl h
    · exact .inr (by decide)
  | float x hx => exact floatLayout.isNumeral_of_mem_write hx

/-- The text of a number is not empty. -/
lemma exists_write_cons (n : Number) : ∃ c cs, n.write.toList = c :: cs ∧ IsNumeral c := by
  have hne : n.write.toList ≠ [] := by
    cases n with
    | integer n _ =>
      have hlength : 0 < (Nat.toDigits 10 n.natAbs).length := Nat.length_toDigits_pos
      rw [write, toList_toString]
      simp [List.ne_nil_of_length_pos hlength]
    | float x hx => exact floatLayout.toList_write_ne_nil hx
  obtain ⟨c, cs, hcs⟩ := List.exists_cons_of_ne_nil hne
  exact ⟨c, cs, hcs, n.isNumeral_of_mem_write c (by rw [hcs]; exact List.mem_cons_self)⟩

/-- A float has a point or a power of ten, and a whole number has neither. -/
lemma toString_ne_write {n : ℤ} {x : Float} (hx : x.isFinite = true) :
    toString n ≠ floatLayout.write x := by
  intro h
  obtain ⟨c, hc, hmark⟩ := floatLayout.exists_mark_write rfl hx
  rw [← h] at hc
  rcases isDigit_of_mem_toString hc with hdigit | rfl
  · rcases hmark with rfl | rfl <;> cases hdigit
  · rcases hmark with h | h <;> cases h

/-- A number is identified by its text: whole numbers by their digits and floats by theirs.

**Proof sketch.** Whole numbers have no point and no power of ten, which floats always have; and
both are identified by their own texts. -/
theorem write_inj {n m : Number} : n.write = m.write ↔ n = m := by
  constructor
  · intro h
    cases n with
    | integer n _ =>
      cases m with
      | integer m _ =>
        obtain rfl : n = m := toString_inj h
        rfl
      | float y hy => exact absurd h (toString_ne_write hy)
    | float x hx =>
      cases m with
      | integer m _ => exact absurd h.symm (toString_ne_write hx)
      | float y hy =>
        obtain rfl : x = y := (floatLayout.write_inj hx hy).1 h
        rfl
  · exact congrArg write

end Number

/-! ### Strings -/

/-- The value of a small hexadecimal digit. -/
def hexValue (c : Char) : ℕ :=
  if c.isDigit then c.toNat - '0'.toNat else c.toNat - 'a'.toNat + 10

/-- What a character stands for behind a backslash. -/
def escaped (c : Char) : Char :=
  match c with
  | 'b' => '\x08'
  | 'f' => '\x0c'
  | 'n' => '\n'
  | 'r' => '\r'
  | 't' => '\t'
  | c => c

/-- The character at the front of the inside of a JSON string, with what follows it. -/
def readEscaped? : List Char → Option (Char × List Char)
  | '\\' :: 'u' :: _ :: _ :: high :: low :: rest =>
    some (Char.ofNat (16 * hexValue high + hexValue low), rest)
  | '\\' :: c :: rest => some (escaped c, rest)
  | c :: rest => some (c, rest)
  | [] => none

/-- The digits of a control character are read again. -/
lemma ofNat_hexPair : ∀ n < 0x20, Char.ofNat (16 * hexValue (Nat.digitChar (n / 16 % 16)) +
    hexValue (Nat.digitChar (n % 16))) = Char.ofNat n := by
  decide

/-- A character inside a JSON string is read again. -/
lemma readEscaped?_escape (c : Char) (rest : List Char) :
    readEscaped? (escape c ++ rest) = some (c, rest) := by
  unfold escape
  split
  case h_8 =>
    split
    case isTrue hcontrol =>
      have hvalue := ofNat_hexPair c.toNat hcontrol
      rw [Char.ofNat_toNat] at hvalue
      simp only [hexPair, List.cons_append, List.nil_append, readEscaped?, hvalue]
    case isFalse =>
      rw [List.singleton_append]
      unfold readEscaped?
      split <;> simp_all
  all_goals rfl

/-- No character is written with a quote in front. -/
lemma escape_append_ne (c : Char) (cs ds : List Char) : escape c ++ cs ≠ '"' :: ds := by
  intro h
  have hread := readEscaped?_escape c cs
  rw [h] at hread
  obtain rfl : '"' = c := (Prod.mk.inj (Option.some.inj hread)).1
  cases h

/-- The inside of a JSON string ends at the first quote that is not escaped.

**Proof sketch.** Induction on the characters. What stands for a character tells it and how far it
reaches, and nothing that stands for a character starts with a quote. -/
lemma escapes_append_inj {cs ds rest rest' : List Char}
    (h : cs.flatMap escape ++ '"' :: rest = ds.flatMap escape ++ '"' :: rest') :
    cs = ds ∧ rest = rest' := by
  induction cs generalizing ds with
  | nil =>
    cases ds with
    | nil => exact ⟨rfl, (List.cons.inj h).2⟩
    | cons d ds =>
      rw [List.flatMap_cons, List.append_assoc] at h
      exact absurd h.symm (escape_append_ne d _ _)
  | cons c cs ih =>
    rw [List.flatMap_cons, List.append_assoc] at h
    cases ds with
    | nil => exact absurd h (escape_append_ne c _ _)
    | cons d ds =>
      rw [List.flatMap_cons, List.append_assoc] at h
      have hread := congrArg readEscaped? h
      rw [readEscaped?_escape, readEscaped?_escape] at hread
      obtain ⟨rfl, htail⟩ := Prod.mk.inj (Option.some.inj hread)
      obtain ⟨rfl, hrest⟩ := ih htail
      exact ⟨rfl, hrest⟩

/-- A JSON string is identified by its text, whatever follows it. -/
lemma quote_append_inj {s t : String} {rest rest' : List Char}
    (h : (quote s).toList ++ rest = (quote t).toList ++ rest') : s = t ∧ rest = rest' := by
  simp only [quote, String.toList_ofList, List.cons_append, List.append_assoc,
    List.nil_append, List.cons.injEq, true_and] at h
  obtain ⟨hchars, hrest⟩ := escapes_append_inj h
  exact ⟨String.toList_inj.1 hchars, hrest⟩

/-! ### Values -/

/-- The kinds of values. -/
inductive Kind where
  | null
  | bool
  | number
  | string
  | array
  | object
deriving DecidableEq

/-- The kind of a value. -/
def kind : Json → Kind
  | .null => .null
  | .bool _ => .bool
  | .number _ => .number
  | .string _ => .string
  | .array _ => .array
  | .object _ => .object

/-- The kind of a value whose text begins with a character, if there are any. -/
def kindOf? (c : Char) : Option Kind :=
  match c with
  | 'n' => some .null
  | 't' | 'f' => some .bool
  | '"' => some .string
  | '[' => some .array
  | '\x7b' => some .object
  | ',' | ']' | '\x7d' => none
  | _ => some .number

/-- A character of a number starts a number. -/
lemma kindOf?_isNumeral {c : Char} (h : Decimal.Literal.IsNumeral c) :
    kindOf? c = some .number := by
  unfold kindOf?
  split
  case h_10 => rfl
  all_goals exact absurd h (by unfold Decimal.Literal.IsNumeral; decide)

/-- The kind of a value is seen at the first character of its text. -/
lemma exists_compress_cons (v : Json) :
    ∃ c cs, v.compress.toList = c :: cs ∧ kindOf? c = some v.kind := by
  cases v with
  | null => exact ⟨'n', _, rfl, rfl⟩
  | bool b =>
    cases b with
    | true => exact ⟨'t', _, rfl, rfl⟩
    | false => exact ⟨'f', _, rfl, rfl⟩
  | number n =>
    obtain ⟨c, cs, hcs, hc⟩ := n.exists_write_cons
    exact ⟨c, cs, hcs, kindOf?_isNumeral hc⟩
  | string s => exact ⟨'"', _, by rw [compress, quote, String.toList_ofList], rfl⟩
  | array items => exact ⟨'[', _, by simp [compress]; rfl, rfl⟩
  | object fields => exact ⟨'\x7b', _, by simp [compress]; rfl, rfl⟩

/-- Two values have the same kind if their texts begin in the same way. -/
lemma kind_eq {v w : Json} {rest rest' : List Char}
    (h : v.compress.toList ++ rest = w.compress.toList ++ rest') : v.kind = w.kind := by
  obtain ⟨c, cs, hcs, hkind⟩ := v.exists_compress_cons
  obtain ⟨d, ds, hds, hkind'⟩ := w.exists_compress_cons
  rw [hcs, hds] at h
  obtain rfl : c = d := (List.cons.inj h).1
  exact Option.some.inj (hkind.symm.trans hkind')

/-- The text of a value does not begin with what may follow one. -/
lemma compress_append_ne {c : Char} (hc : kindOf? c = none) (v : Json) (cs ds : List Char) :
    v.compress.toList ++ cs ≠ c :: ds := by
  intro h
  obtain ⟨d, ds, hds, hkind⟩ := v.exists_compress_cons
  rw [hds] at h
  obtain rfl : d = c := (List.cons.inj h).1
  rw [hc] at hkind
  cases hkind

/-- A value may be followed by nothing, a comma or a closing bracket. -/
def Ends (rest : List Char) : Prop :=
  ∀ c ∈ rest.head?, c = ',' ∨ c = ']' ∨ c = '\x7d'

/-- A comma and a closing bracket may follow a value. -/
lemma ends_cons {c : Char} (h : c = ',' ∨ c = ']' ∨ c = '\x7d') (cs : List Char) :
    Ends (c :: cs) := by
  intro d hd
  obtain rfl := Option.some.inj hd
  exact h

/-- What may follow a value does not go on with a number. -/
lemma Ends.not_isNumeral {rest : List Char} (h : Ends rest) :
    ∀ c ∈ rest.head?, ¬ Decimal.Literal.IsNumeral c := by
  intro c hc hnumeral
  have hkind := kindOf?_isNumeral hnumeral
  rcases h c hc with rfl | rfl | rfl <;> cases hkind

/-! ### Values inside others -/

/-- What follows an element of a list or a member of an object: a comma in front of others, or else
the closing bracket. -/
def continued (others close : List Char) : List Char :=
  if others = [] then close else ',' :: (others ++ close)

/-- What continues a list or an object may follow a value. -/
lemma ends_continued {others close : List Char} (h : Ends close) :
    Ends (continued others close) := by
  unfold continued
  split
  case isTrue => exact h
  case isFalse => exact ends_cons (.inl rfl) _

/-- A closing bracket is no comma, so others follow in both texts or in neither of them. -/
lemma continued_inj {others others' rest rest' : List Char} {close : Char} (hclose : close ≠ ',')
    (h : continued others (close :: rest) = continued others' (close :: rest')) :
    others ++ close :: rest = others' ++ close :: rest' := by
  unfold continued at h
  split at h <;> split at h
  case isTrue.isTrue hnil hnil' => rw [hnil, hnil', List.nil_append, List.nil_append, h]
  case isTrue.isFalse => exact absurd (List.cons.inj h).1 hclose
  case isFalse.isTrue => exact absurd (List.cons.inj h).1.symm hclose
  case isFalse.isFalse => exact (List.cons.inj h).2

/-- A list goes on after its first element. -/
lemma toList_compressItems (v : Json) (vs : List Json) (close : List Char) :
    (compressItems (v :: vs)).toList ++ close =
      v.compress.toList ++ continued (compressItems vs).toList close := by
  cases vs with
  | nil => simp [compressItems, continued]
  | cons w vs =>
    have hne : (compressItems (w :: vs)).toList ≠ [] := by
      obtain ⟨c, cs, hcs, -⟩ := w.exists_compress_cons
      cases vs <;> simp [compressItems, hcs]
    rw [continued, if_neg hne, compressItems]
    simp

/-- An object goes on after the name and the value of its first member. -/
lemma toList_compressFields (name : String) (v : Json) (fields : List (String × Json))
    (close : List Char) : (compressFields ((name, v) :: fields)).toList ++ close =
      (quote name).toList ++
        ':' :: (v.compress.toList ++ continued (compressFields fields).toList close) := by
  cases fields with
  | nil => simp [compressFields, continued]
  | cons field fields =>
    have hne : (compressFields (field :: fields)).toList ≠ [] := by
      cases fields <;> simp [compressFields, quote]
    rw [continued, if_neg hne, compressFields]
    simp

/-- A list is written between brackets. -/
lemma compress_array (vs : List Json) (rest : List Char) :
    (Json.array vs).compress.toList ++ rest =
      '[' :: ((compressItems vs).toList ++ ']' :: rest) := by
  simp [compress]

/-- An object is written between braces. -/
lemma compress_object (fields : List (String × Json)) (rest : List Char) :
    (Json.object fields).compress.toList ++ rest =
      '\x7b' :: ((compressFields fields).toList ++ '\x7d' :: rest) := by
  simp [compress]

mutual

/-- A value is identified by its text, whatever may follow it, and so is what follows.

**Proof sketch.** By induction on the value. The first character shows the kind of both values. The
characters of a number go on to the end, a string ends at its closing quote, and the elements of
lists and the members of objects are followed by a comma or by the closing bracket. -/
theorem compress_append_inj : (v : Json) → ∀ (w : Json) {rest rest' : List Char}, Ends rest →
    Ends rest' → v.compress.toList ++ rest = w.compress.toList ++ rest' → v = w ∧ rest = rest'
  | .null => by
    intro w rest rest' _ _ h
    cases w with
    | null => exact ⟨rfl, List.append_cancel_left h⟩
    | _ => cases kind_eq h
  | .bool b => by
    intro w rest rest' _ _ h
    cases w with
    | bool b' =>
      cases b <;> cases b'
      case false.false | true.true => exact ⟨rfl, List.append_cancel_left h⟩
      case false.true | true.false => cases h
    | _ => cases kind_eq h
  | .number n => by
    intro w rest rest' hends hends' h
    cases w with
    | number m =>
      rw [compress, compress] at h
      obtain ⟨htext, hrest⟩ := append_inj_of_stop n.isNumeral_of_mem_write
        m.isNumeral_of_mem_write hends.not_isNumeral hends'.not_isNumeral h
      exact ⟨congrArg number (Number.write_inj.1 (String.toList_inj.1 htext)), hrest⟩
    | _ => cases kind_eq h
  | .string s => by
    intro w rest rest' _ _ h
    cases w with
    | string t =>
      rw [compress, compress] at h
      obtain ⟨rfl, hrest⟩ := quote_append_inj h
      exact ⟨rfl, hrest⟩
    | _ => cases kind_eq h
  | .array vs => by
    intro w rest rest' _ _ h
    cases w with
    | array ws =>
      rw [compress_array, compress_array] at h
      obtain ⟨rfl, hrest⟩ := compressItems_append_inj vs ws (List.cons.inj h).2
      exact ⟨rfl, hrest⟩
    | _ => cases kind_eq h
  | .object fields => by
    intro w rest rest' _ _ h
    cases w with
    | object fields' =>
      rw [compress_object, compress_object] at h
      obtain ⟨rfl, hrest⟩ := compressFields_append_inj fields fields' (List.cons.inj h).2
      exact ⟨rfl, hrest⟩
    | _ => cases kind_eq h

/-- The elements of a list are identified by their text up to the closing bracket. -/
theorem compressItems_append_inj : (vs ws : List Json) → {rest rest' : List Char} →
    (compressItems vs).toList ++ ']' :: rest = (compressItems ws).toList ++ ']' :: rest' →
      vs = ws ∧ rest = rest'
  | [], [], rest, rest', h => ⟨rfl, (List.cons.inj h).2⟩
  | [], w :: ws, rest, rest', h => by
    rw [toList_compressItems] at h
    exact absurd h.symm (compress_append_ne rfl w _ _)
  | v :: vs, [], rest, rest', h => by
    rw [toList_compressItems] at h
    exact absurd h (compress_append_ne rfl v _ _)
  | v :: vs, w :: ws, rest, rest', h => by
    have hends := ends_cons (.inr (.inl (Eq.refl ']')))
    rw [toList_compressItems, toList_compressItems] at h
    obtain ⟨rfl, hothers⟩ := compress_append_inj v w (ends_continued (hends rest))
      (ends_continued (hends rest')) h
    obtain ⟨rfl, hrest⟩ := compressItems_append_inj vs ws (continued_inj (by decide) hothers)
    exact ⟨rfl, hrest⟩

/-- The members of an object are identified by their text up to the closing bracket.

**Proof sketch.** By both lists of members. The name is identified up to its quote, then the value
up to the comma or the bracket behind it, and then the other members. -/
theorem compressFields_append_inj : (fields fields' : List (String × Json)) →
    {rest rest' : List Char} →
    (compressFields fields).toList ++ '\x7d' :: rest =
      (compressFields fields').toList ++ '\x7d' :: rest' → fields = fields' ∧ rest = rest'
  | [], [], rest, rest', h => ⟨rfl, (List.cons.inj h).2⟩
  | [], (name, w) :: fields', rest, rest', h => by
    rw [toList_compressFields, quote, String.toList_ofList] at h
    cases h
  | (name, v) :: fields, [], rest, rest', h => by
    rw [toList_compressFields, quote, String.toList_ofList] at h
    cases h
  | (name, v) :: fields, (name', w) :: fields', rest, rest', h => by
    have hends := ends_cons (.inr (.inr (Eq.refl '\x7d')))
    rw [toList_compressFields, toList_compressFields] at h
    obtain ⟨rfl, hvalue⟩ := quote_append_inj h
    obtain ⟨rfl, hothers⟩ := compress_append_inj v w (ends_continued (hends rest))
      (ends_continued (hends rest')) (List.cons.inj hvalue).2
    obtain ⟨rfl, hrest⟩ :=
      compressFields_append_inj fields fields' (continued_inj (by decide) hothers)
    exact ⟨rfl, hrest⟩

end

/-- A value is identified by its text. -/
theorem compress_inj {v w : Json} : v.compress = w.compress ↔ v = w := by
  constructor
  · intro h
    have hnone : Ends [] := nofun
    have htext : v.compress.toList ++ [] = w.compress.toList ++ [] := by rw [h]
    exact (compress_append_inj v w hnone hnone htext).1
  · exact congrArg compress

end Cohort.Json
