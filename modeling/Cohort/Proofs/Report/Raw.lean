import Cohort.Proofs.Json.Printer
import Cohort.Proofs.Report.Csv
set_option relaxedAutoImplicit false
set_option autoImplicit false

/-!
# What a raw export tells of the values

The cells of exported comma-separated values can be told apart: a cell in quotes ends at the first
quote that is not doubled, and any other cell at the next separator. In a raw export texts always
stand in quotes, null is an empty cell and any other value is its JSON text. But a JSON text with a
comma or a quote stands in quotes as well, so a list or an object can have the cell of a text. The
values of two exported tables are the same up to this.

## Main definitions

* `Cohort.Report.Confused` — a text and a list or an object with the same cell.
* `Cohort.Report.Indistinct` — values with the same cell.

## Main results

* `Cohort.Report.Csv.flatMap_record_inj` — lines are identified by their text, cell by cell.
* `Cohort.Report.csvValue_raw_eq_iff` — the values that have the same raw cell.
* `Cohort.Report.Table.csv_raw_eq_iff` — the tables that have the same raw export.
-/

namespace Cohort.Report

namespace Csv

/-! ### Cells -/

section Cells

variable {c d : Char} {cell cell' cs ds rest rest' text text' : List Char}

/-- A text in quotes and what follows stand between the first quote and the end. -/
lemma quote_append (cs rest : List Char) : quote cs ++ rest =
    '"' :: ((cs.flatMap fun c => if c = '"' then ['"', '"'] else [c]) ++ '"' :: rest) := by
  simp [quote]

/-- A text in quotes ends at the first quote that is not doubled.

**Proof sketch.** Induction on one of the texts, character by character. A quote inside is doubled,
so it is told from the one that ends the text by what follows. -/
lemma quote_append_inj (hc : c ≠ '"') (hd : d ≠ '"')
    (h : quote cs ++ c :: rest = quote ds ++ d :: rest') : cs = ds ∧ c :: rest = d :: rest' := by
  rw [quote_append, quote_append, List.cons.injEq] at h
  replace h := h.2
  induction cs generalizing ds with
  | nil =>
    cases ds with
    | nil => exact ⟨rfl, (List.cons.inj h).2⟩
    | cons e ds =>
      rw [List.flatMap_cons, List.append_assoc] at h
      split at h
      case isTrue => exact absurd (List.cons.inj (List.cons.inj h).2).1 hc
      case isFalse he => exact absurd (List.cons.inj h).1.symm he
  | cons b cs ih =>
    rw [List.flatMap_cons, List.append_assoc] at h
    cases ds with
    | nil =>
      split at h
      case isTrue => exact absurd (List.cons.inj (List.cons.inj h).2).1.symm hd
      case isFalse hb => exact absurd (List.cons.inj h).1 hb
    | cons e ds =>
      rw [List.flatMap_cons, List.append_assoc] at h
      -- a quote stands there twice, and any other character once
      split at h <;> split at h
      case isTrue.isTrue hb he =>
        obtain ⟨rfl, hrest⟩ := ih (List.cons.inj (List.cons.inj h).2).2
        exact ⟨by rw [hb, he], hrest⟩
      case isTrue.isFalse he => exact absurd (List.cons.inj h).1.symm he
      case isFalse.isTrue hb _ => exact absurd (List.cons.inj h).1 hb
      case isFalse.isFalse =>
        obtain ⟨rfl, htail⟩ := List.cons.inj h
        obtain ⟨rfl, hrest⟩ := ih htail
        exact ⟨rfl, hrest⟩

/-- A text in quotes is identified by its cell. -/
lemma quote_inj (h : quote cs = quote ds) : cs = ds := by
  have hnext : quote cs ++ [','] = quote ds ++ [','] := by rw [h]
  exact (quote_append_inj (by decide) (by decide) hnext).1

/-- No text without characters that have a meaning looks like one in quotes. -/
lemma quote_ne (h : ∀ c ∈ ds, isSpecial c = false) : quote cs ≠ ds := by
  rintro rfl
  have hquote := h '"' (by simp [quote])
  cases hquote

/-- A text is identified by its cell. -/
lemma cell_inj (h : Csv.cell cs = Csv.cell ds) : cs = ds := by
  rcases shows_cell cs with hcs | ⟨hcs, hplain⟩ <;> rcases shows_cell ds with hds | ⟨hds, hplain'⟩
    <;> rw [hcs, hds] at h
  · exact quote_inj h
  · exact absurd h (quote_ne hplain')
  · exact absurd h.symm (quote_ne hplain)
  · exact h

/-- A separator between cells or lines. -/
def IsSeparator (c : Char) : Prop :=
  c = ',' ∨ c = '\n'

/-- A separator is no quote. -/
lemma IsSeparator.ne_quote (h : IsSeparator c) : c ≠ '"' := by
  rcases h with rfl | rfl <;> decide

/-- A separator has a meaning in a text of cells. -/
lemma IsSeparator.isSpecial (h : IsSeparator c) : isSpecial c = true := by
  rcases h with rfl | rfl <;> rfl

/-- No text without characters that have a meaning begins like one in quotes. -/
lemma quote_append_ne (hplain : ∀ c ∈ ds, isSpecial c = false) (hd : IsSeparator d) :
    quote cs ++ rest ≠ ds ++ d :: rest' := by
  intro h
  rw [quote_append] at h
  cases ds with
  | nil => exact hd.ne_quote (List.cons.inj h).1.symm
  | cons e ds =>
    have hspecial := hplain e List.mem_cons_self
    rw [← (List.cons.inj h).1] at hspecial
    cases hspecial

/-- A cell in front of a separator ends there. -/
lemma shows_append_inj (hcell : Shows cell text) (hcell' : Shows cell' text')
    (hc : IsSeparator c) (hd : IsSeparator d) (h : cell ++ c :: rest = cell' ++ d :: rest') :
    cell = cell' ∧ c :: rest = d :: rest' := by
  rcases hcell with rfl | ⟨rfl, hplain⟩ <;> rcases hcell' with rfl | ⟨rfl, hplain'⟩
  · obtain ⟨rfl, hrest⟩ := quote_append_inj hc.ne_quote hd.ne_quote h
    exact ⟨rfl, hrest⟩
  · exact absurd h (quote_append_ne hplain' hd)
  · exact absurd h.symm (quote_append_ne hplain hc)
  · have hstop : ∀ {e : Char} {tail : List Char}, IsSeparator e →
        ∀ b ∈ (e :: tail).head?, ¬ isSpecial b = false := by
      rintro e tail he b hb
      obtain rfl := Option.some.inj hb
      rw [he.isSpecial]
      decide
    exact Json.append_inj_of_stop hplain hplain' (hstop hc) (hstop hd) h

end Cells

/-! ### Lines -/

section Lines

variable {row row' : List (List Char)} {rows rows' : List (List (List Char))}
  {rest rest' : List Char}

/-- Cells that show texts. -/
def AreCells (row : List (List Char)) : Prop :=
  ∀ cell ∈ row, ∃ text, Shows cell text

/-- What shows texts consists of cells. -/
lemma areCells_of_shows {texts : List (List Char)} (h : List.Forall₂ Shows row texts) :
    AreCells row := by
  induction h with
  | nil => nofun
  | cons hcell _ ih =>
    intro cell hmem
    rcases List.mem_cons.1 hmem with rfl | hmem
    · exact ⟨_, hcell⟩
    · exact ih cell hmem

/-- After the first cell of a line comes a separator, and then the end of the line or the next
cells. -/
lemma record_append (cell : List Char) (row : List (List Char)) (rest : List Char) :
    ∃ c tail, IsSeparator c ∧ record (cell :: row) ++ rest = cell ++ c :: tail ∧
      (row = [] ∧ c = '\n' ∧ tail = rest ∨ row ≠ [] ∧ c = ',' ∧ tail = record row ++ rest) := by
  cases row with
  | nil => exact ⟨'\n', rest, .inr rfl, by simp [record], .inl ⟨rfl, rfl, rfl⟩⟩
  | cons next row =>
    exact ⟨',', _, .inl rfl, by simp [record, List.intercalate], .inr ⟨by simp, rfl, rfl⟩⟩

/-- A line is identified by its text, cell by cell, whatever follows it.

**Proof sketch.** Induction on the cells. A cell is found by its text up to the comma or the line
break behind it, and the two differ, so both lines end at the same cell. -/
lemma record_append_inj (hne : row ≠ []) (hne' : row' ≠ []) (hcells : AreCells row)
    (hcells' : AreCells row') (h : record row ++ rest = record row' ++ rest') :
    row = row' ∧ rest = rest' := by
  induction row generalizing row' with
  | nil => exact absurd rfl hne
  | cons cell row ih =>
    obtain ⟨cell', row', rfl⟩ := List.exists_cons_of_ne_nil hne'
    obtain ⟨c, tail, hc, htext, hend⟩ := record_append cell row rest
    obtain ⟨d, tail', hd, htext', hend'⟩ := record_append cell' row' rest'
    obtain ⟨text, hshows⟩ := hcells cell List.mem_cons_self
    obtain ⟨text', hshows'⟩ := hcells' cell' List.mem_cons_self
    rw [htext, htext'] at h
    obtain ⟨rfl, htail⟩ := shows_append_inj hshows hshows' hc hd h
    obtain ⟨rfl, rfl⟩ := List.cons.inj htail
    rcases hend with ⟨rfl, rfl, rfl⟩ | ⟨hrow, rfl, rfl⟩
    · rcases hend' with ⟨rfl, -, rfl⟩ | ⟨-, hcomma, -⟩
      · exact ⟨rfl, rfl⟩
      · cases hcomma
    · rcases hend' with ⟨-, hcomma, -⟩ | ⟨hrow', -, hmore⟩
      · cases hcomma
      · obtain ⟨rfl, hrest⟩ := ih hrow hrow' (fun b hb => hcells b (List.mem_cons_of_mem _ hb))
          (fun b hb => hcells' b (List.mem_cons_of_mem _ hb)) hmore
        exact ⟨rfl, hrest⟩

/-- Lines of cells. -/
def AreLines (rows : List (List (List Char))) : Prop :=
  ∀ row ∈ rows, row ≠ [] ∧ AreCells row

/-- Lines are identified by their text, cell by cell.

**Proof sketch.** Induction on the lines. A line is not empty, and it ends where the other one does
(`record_append_inj`). -/
theorem flatMap_record_inj (hrows : AreLines rows) (hrows' : AreLines rows')
    (h : rows.flatMap record = rows'.flatMap record) : rows = rows' := by
  have hline : ∀ (row : List (List Char)) (tail : List Char), record row ++ tail ≠ [] := by
    intro row tail
    simp [record]
  induction rows generalizing rows' with
  | nil =>
    cases rows' with
    | nil => rfl
    | cons row' rows' => exact absurd h.symm (hline row' _)
  | cons row rows ih =>
    cases rows' with
    | nil => exact absurd h (hline row _)
    | cons row' rows' =>
      obtain ⟨hne, hcells⟩ := hrows row List.mem_cons_self
      obtain ⟨hne', hcells'⟩ := hrows' row' List.mem_cons_self
      obtain ⟨rfl, hrest⟩ := record_append_inj hne hne' hcells hcells' h
      rw [ih (fun r hr => hrows r (List.mem_cons_of_mem _ hr))
        (fun r hr => hrows' r (List.mem_cons_of_mem _ hr)) hrest]

end Lines

end Csv

/-! ### Values -/

section Values

variable {v w : Json} {format format' : Format}

/-- A text, and a list or an object whose JSON text it is and needs quotes. -/
inductive Confused : Json → Json → Prop
  /-- The JSON text holds a character with a meaning. -/
  | text (w : Json) (hkind : w.kind = .array ∨ w.kind = .object)
      (hspecial : w.compress.toList.any Csv.isSpecial = true) : Confused (.string w.compress) w

/-- Two values are the same or a text and a value that it is confused with. -/
def Indistinct (v w : Json) : Prop :=
  v = w ∨ Confused v w ∨ Confused w v

/-- What a text is confused with is a list or an object. -/
lemma Confused.kind_eq (h : Confused v w) : w.kind = .array ∨ w.kind = .object := by
  cases h with
  | text _ hkind => exact hkind

/-- Values of the other kinds have no character with a meaning in their JSON texts. -/
lemma kind_of_special (hstring : v.kind ≠ .string)
    (h : v.compress.toList.any Csv.isSpecial = true) : v.kind = .array ∨ v.kind = .object := by
  cases v with
  | null => cases h
  | bool b => cases b <;> cases h
  | number n =>
    obtain ⟨c, hc, hspecial⟩ := List.any_eq_true.1 h
    rcases n.isNumeral_of_mem_write c hc with hdigit | hsign
    · simp only [Csv.isSpecial, Bool.or_eq_true, beq_iff_eq] at hspecial
      rcases hspecial with ((rfl | rfl) | rfl) | rfl <;> cases hdigit
    · simp only [Csv.isSpecial, Bool.or_eq_true, beq_iff_eq] at hspecial
      rcases hspecial with ((rfl | rfl) | rfl) | rfl <;> exact absurd hsign (by decide)
  | string s => exact absurd rfl hstring
  | array vs => exact .inl rfl
  | object fields => exact .inr rfl

/-- The raw cell of a value that is neither a text nor null. -/
lemma csvValue_raw (hstring : v.kind ≠ .string) (hnull : v.kind ≠ .null) :
    csvValue .raw format v = Csv.cell v.compress.toList := by
  cases v with
  | null => exact absurd rfl hnull
  | string s => exact absurd rfl hstring
  | bool _ | number _ | array _ | object _ => rfl

/-- A text has the raw cell of a value of another kind if it is confused with it.

**Proof sketch.** The cell of another value has quotes around it only if its text has a special
character, and then the text in the quotes is the compact JSON text of the value. -/
lemma quote_eq_csvValue_iff {s : String} (hstring : w.kind ≠ .string) :
    Csv.quote s.toList = csvValue .raw format w ↔ Confused (.string s) w := by
  constructor
  · intro h
    by_cases hnull : w.kind = .null
    · cases w with
      | null => simp [csvValue, Csv.quote] at h
      | _ => cases hnull
    · rw [csvValue_raw hstring hnull, Csv.cell] at h
      split at h
      case isTrue hspecial =>
        obtain rfl : s = w.compress := String.toList_inj.1 (Csv.quote_inj h)
        exact .text w (kind_of_special hstring hspecial) hspecial
      case isFalse hplain =>
        refine absurd h (Csv.quote_ne fun c hc => ?_)
        simpa using fun hspecial => hplain (List.any_eq_true.2 ⟨c, hc, hspecial⟩)
  · intro h
    cases h with
    | text _ hkind hspecial =>
      have hnull : w.kind ≠ .null := by
        intro hnull
        rw [hnull] at hkind
        rcases hkind with hkind | hkind <;> cases hkind
      rw [csvValue_raw hstring hnull, Csv.cell, if_pos hspecial]

/-- A value that is neither a text nor null has a cell. -/
lemma csvValue_raw_ne_nil (hstring : v.kind ≠ .string) (hnull : v.kind ≠ .null) :
    csvValue .raw format v ≠ [] := by
  obtain ⟨c, cs, hcs, -⟩ := v.exists_compress_cons
  rw [csvValue_raw hstring hnull, hcs, Csv.cell]
  split <;> simp [Csv.quote]

/-- A raw cell does not depend on how the column is shown. -/
lemma csvValue_raw_format (format format' : Format) (v : Json) :
    csvValue .raw format v = csvValue .raw format' v := by
  cases v <;> rfl

/-- A value is a text or it is of another kind. -/
lemma eq_string_or (v : Json) : (∃ s, v = .string s) ∨ v.kind ≠ .string := by
  cases v with
  | string s => exact .inl ⟨s, rfl⟩
  | null | bool _ | number _ | array _ | object _ => exact .inr nofun

/-- A text and the value that it is confused with have the same cell. -/
lemma Confused.csvValue_eq (h : Confused v w) :
    csvValue .raw format v = csvValue .raw format' w := by
  have hstring : w.kind ≠ .string := by
    intro hstring
    rcases h.kind_eq with hkind | hkind <;> rw [hstring] at hkind <;> cases hkind
  obtain ⟨s, rfl⟩ : ∃ s, v = .string s := by
    cases h
    exact ⟨_, rfl⟩
  exact (quote_eq_csvValue_iff hstring).2 h

/-- Values that are not texts are identified by their cells. -/
lemma eq_of_csvValue_eq (hv : v.kind ≠ .string) (hw : w.kind ≠ .string)
    (h : csvValue .raw format v = csvValue .raw format' w) : v = w := by
  have hnone : ∀ {u : Json}, u.kind = .null → u = .null := by
    intro u hu
    cases u with
    | null => rfl
    | bool _ | number _ | string _ | array _ | object _ => cases hu
  by_cases hnull : v.kind = .null <;> by_cases hnull' : w.kind = .null
  · rw [hnone hnull, hnone hnull']
  · rw [hnone hnull] at h
    exact absurd h.symm (csvValue_raw_ne_nil hw hnull')
  · rw [hnone hnull'] at h
    exact absurd h (csvValue_raw_ne_nil hv hnull)
  · rw [csvValue_raw hv hnull, csvValue_raw hw hnull'] at h
    exact Json.compress_inj.1 (String.toList_inj.1 (Csv.cell_inj h))

/-- Two values have the same raw cell if and only if they are the same or one of them is a text and
the other one a list or an object whose JSON text it is and needs quotes. -/
theorem csvValue_raw_eq_iff :
    csvValue .raw format v = csvValue .raw format' w ↔ Indistinct v w := by
  constructor
  · intro h
    rcases eq_string_or v with ⟨s, rfl⟩ | hv <;> rcases eq_string_or w with ⟨t, rfl⟩ | hw
    · exact .inl (congrArg Json.string (String.toList_inj.1 (Csv.quote_inj h)))
    · exact .inr (.inl ((quote_eq_csvValue_iff hw).1 h))
    · exact .inr (.inr ((quote_eq_csvValue_iff hv).1 h.symm))
    · exact .inl (eq_of_csvValue_eq hv hw h)
  · rintro (rfl | h | h)
    · exact csvValue_raw_format format format' v
    · exact h.csvValue_eq
    · exact h.csvValue_eq.symm

end Values

/-! ### Tables -/

namespace Table

variable {t u : Table}

/-- All rows of a table have a value for each column. -/
def IsFull (t : Table) : Prop :=
  ∀ row ∈ t.rows, row.values.length = t.columns.length

/-- The profiles of two rows are the same, and so are their values as far as their cells tell. -/
def SameRow (row row' : Row) : Prop :=
  row.profileId = row'.profileId ∧ List.Forall₂ Indistinct row.values row'.values

/-- The lines of a raw export. -/
def rawLines (t : Table) : List (List (List Char)) :=
  t.csvHeader .raw :: t.rows.map (t.csvRow .raw)

/-- A raw export consists of lines of cells. -/
lemma areLines_rawLines (t : Table) : Csv.AreLines t.rawLines := by
  intro row hrow
  rcases List.mem_cons.1 hrow with rfl | hrow
  · exact ⟨by simp [csvHeader], Csv.areCells_of_shows (t.shows_csvHeader .raw)⟩
  · obtain ⟨r, -, rfl⟩ := List.mem_map.1 hrow
    exact ⟨by simp [csvRow], Csv.areCells_of_shows (t.shows_csvRow .raw r)⟩

/-- Two raw exports are the same if and only if their lines are, cell by cell. -/
lemma csv_raw_eq_iff_rawLines : t.csv .raw = u.csv .raw ↔ t.rawLines = u.rawLines := by
  have htext : ∀ s : Table, (s.csv .raw).toList = s.rawLines.flatMap Csv.record := by
    intro s
    rw [csv, String.toList_ofList, rawLines, List.flatMap_cons, List.flatMap_map]
  constructor
  · intro h
    apply Csv.flatMap_record_inj t.areLines_rawLines u.areLines_rawLines
    rw [← htext, ← htext, h]
  · intro h
    rw [← String.toList_inj, htext, htext, h]

/-- The first lines are the same if and only if the columns have the same keys.

**Proof sketch.** A first line is made of the cells of the keys, and a cell identifies its text
(`Csv.cell_inj`). -/
lemma csvHeader_raw_eq_iff :
    t.csvHeader .raw = u.csvHeader .raw ↔ t.columns.map (·.key) = u.columns.map (·.key) := by
  have hcells : ∀ s : Table, s.csvHeader .raw =
      Csv.cell profileColumn.toList :: (s.columns.map (·.key)).map fun key =>
        Csv.cell key.toList := by
    intro s
    rw [csvHeader, List.map_map]
    rfl
  have hinjective : Function.Injective fun key : String => Csv.cell key.toList := fun _ _ h =>
    String.toList_inj.1 (Csv.cell_inj h)
  rw [hcells, hcells, List.cons.injEq, hinjective.list_map.eq_iff]
  simp

/-- Lists have the same images if and only if they belong together element by element.

**Proof sketch.** Induction on the first list. -/
lemma map_eq_map_iff_forall₂ {α β γ : Type} {f : α → γ} {g : β → γ} {R : α → β → Prop}
    {as : List α} {bs : List β} (h : ∀ a ∈ as, ∀ b ∈ bs, f a = g b ↔ R a b) :
    as.map f = bs.map g ↔ List.Forall₂ R as bs := by
  induction as generalizing bs with
  | nil => cases bs <;> simp
  | cons a as ih =>
    cases bs with
    | nil => simp
    | cons b bs =>
      have hrest := ih fun a ha b hb =>
        h a (List.mem_cons_of_mem _ ha) b (List.mem_cons_of_mem _ hb)
      rw [List.map_cons, List.map_cons, List.cons.injEq, List.forall₂_cons, hrest,
        h a List.mem_cons_self b List.mem_cons_self]

/-- The line of a full row consists of the cells of its values. -/
lemma csvRow_raw {row : Row} (h : row.values.length = t.columns.length) :
    t.csvRow .raw row =
      Csv.cell row.profileId.toList :: row.values.map (csvValue .raw .text) := by
  have hvalues : (t.columns.zip row.values).map Prod.snd = row.values :=
    List.map_snd_zip (Nat.le_of_eq h)
  have hcells : (t.columns.zip row.values).map (fun e => csvValue .raw e.1.format e.2) =
      ((t.columns.zip row.values).map Prod.snd).map (csvValue .raw .text) := by
    rw [List.map_map]
    exact List.map_congr_left fun e _ => csvValue_raw_format _ _ _
  rw [hvalues] at hcells
  rw [csvRow, ← hcells]

/-- The lines of two full rows are the same if and only if the rows are, as far as their cells
tell. -/
lemma csvRow_raw_eq_iff {row row' : Row} (h : row.values.length = t.columns.length)
    (h' : row'.values.length = u.columns.length) :
    t.csvRow .raw row = u.csvRow .raw row' ↔ SameRow row row' := by
  have hprofile : Csv.cell row.profileId.toList = Csv.cell row'.profileId.toList ↔
      row.profileId = row'.profileId :=
    ⟨fun heq => String.toList_inj.1 (Csv.cell_inj heq), fun heq => by rw [heq]⟩
  have hvalues : row.values.map (csvValue .raw .text) = row'.values.map (csvValue .raw .text) ↔
      List.Forall₂ Indistinct row.values row'.values :=
    map_eq_map_iff_forall₂ fun _ _ _ _ => csvValue_raw_eq_iff
  rw [csvRow_raw h, csvRow_raw h', List.cons.injEq, hprofile, hvalues, SameRow]

/-- Two values have the same cell in a raw export if and only if they are the same or one of them is
a text and the other one a list or an object whose JSON text it is and needs quotes. Two tables that
are full have the same raw export if and only if their columns have the same keys and their rows the
same profiles and values, up to this.

**Proof sketch.** A JSON value is identified by its text, and a cell of comma-separated values by
the text that it shows and by its quotes. In a line the cells are identified one after the other. -/
theorem csv_raw_eq_iff (t u : Table) :
    (∀ v w format format', csvValue .raw format v = csvValue .raw format' w ↔ Indistinct v w) ∧
      (t.IsFull → u.IsFull →
        (t.csv .raw = u.csv .raw ↔ t.columns.map (·.key) = u.columns.map (·.key) ∧
          List.Forall₂ SameRow t.rows u.rows)) := by
  constructor
  · intro v w format format'
    exact csvValue_raw_eq_iff
  · intro ht hu
    have hrows : t.rows.map (t.csvRow .raw) = u.rows.map (u.csvRow .raw) ↔
        List.Forall₂ SameRow t.rows u.rows :=
      map_eq_map_iff_forall₂ fun row hrow row' hrow' =>
        csvRow_raw_eq_iff (ht row hrow) (hu row' hrow')
    rw [csv_raw_eq_iff_rawLines, rawLines, rawLines, List.cons.injEq, csvHeader_raw_eq_iff, hrows]

/-- A table with one column and one value in it. -/
def ofValue (v : Json) : Table where
  columns := [⟨"answer", "Answer", .text, false⟩]
  rows := [⟨"u1", [v], false⟩]
  pagination := ⟨1, 50, 1, 1⟩
  degraded := false
  generatedAt := ⟨0, 0, Instant.zero_range, Instant.zero_lt_nanos⟩

/-- The table of a single value is full. -/
lemma isFull_ofValue (v : Json) : (ofValue v).IsFull := by
  intro row hrow
  obtain rfl := List.mem_singleton.1 hrow
  rfl

/-- A number is told from the text with the same digits. -/
theorem five_told_apart : (ofValue (.number (.integer 5))).IsFull ∧
    (ofValue (.string "5")).IsFull ∧
    (ofValue (.number (.integer 5))).csv .raw ≠ (ofValue (.string "5")).csv .raw := by
  refine ⟨isFull_ofValue _, isFull_ofValue _, fun h => ?_⟩
  obtain ⟨-, hrows⟩ := ((csv_raw_eq_iff _ _).2 (isFull_ofValue _) (isFull_ofValue _)).1 h
  obtain ⟨⟨-, hvalues⟩, -⟩ := List.forall₂_cons.1 hrows
  obtain ⟨hsame | hconfused | hconfused, -⟩ := List.forall₂_cons.1 hvalues
  · cases hsame
  · cases hconfused
  · rcases hconfused.kind_eq with hkind | hkind <;> cases hkind

/-- A list is not told from the text that reads like it. -/
theorem list_confused :
    csvValue .raw .text (.array [.string "a"]) = csvValue .raw .text (.string "[\"a\"]") ∧
      Json.array [.string "a"] ≠ .string "[\"a\"]" ∧
      (ofValue (.array [.string "a"])).csv .raw = (ofValue (.string "[\"a\"]")).csv .raw ∧
      ofValue (.array [.string "a"]) ≠ ofValue (.string "[\"a\"]") := by
  decide

end Table

end Cohort.Report
