import Mathlib.Data.List.Forall2
import Mathlib.Tactic.Lemma
import Cohort.Report.Export
set_option relaxedAutoImplicit false
set_option autoImplicit false

/-!
# Reading comma-separated values

A reader of comma-separated values goes through a text character by character. Cells are separated
by commas and records by line breaks, which are line feeds with or without a carriage return before
them. A cell may stand in quotes; then it may hold commas and line breaks, and each of its quotes is
written twice. A text is refused if a quote stands inside a cell without quotes, if anything but a
separator follows the closing quote of a cell, or if a carriage return outside of quotes is not
followed by a line feed. What the reader finds in the export of a table are the titles and the texts
of the values.

## Main definitions

* `Cohort.Report.Csv.Progress` — how far a reader has come.
* `Cohort.Report.Csv.read?` — the records of a text.
* `Cohort.Report.plainText` — the text of a value in an export.

## Main results

* `Cohort.Report.Csv.run_records` — a reader finds what lines were made of.
* `Cohort.Report.Table.read_csv` — the records of an exported table.
-/

namespace Cohort.Report

namespace Csv

/-! ### A reader -/

/-- Where a reader stands. -/
inductive Place where
  /-- At the start of a cell. -/
  | fresh
  /-- In a cell without quotes. -/
  | plain
  /-- In a cell in quotes. -/
  | quoted
  /-- After a quote in a cell in quotes, which ends the cell unless another one follows. -/
  | closed
  /-- After a carriage return outside of quotes. -/
  | returned
deriving DecidableEq

/-- How far a reader has come. -/
structure Progress where
  /-- The records that were read. -/
  records : List (List (List Char))
  /-- The cells that were read of the next record. -/
  cells : List (List Char)
  /-- The text that was read of the next cell. -/
  text : List Char
  /-- Where the reader stands. -/
  place : Place

namespace Progress

/-- A reader at the start of a cell, with records and cells of the next record. -/
def between (records : List (List (List Char))) (cells : List (List Char)) : Progress :=
  ⟨records, cells, [], .fresh⟩

/-- A reader that takes a character into the cell. -/
def take (p : Progress) (place : Place) (c : Char) : Progress :=
  { p with text := p.text ++ [c], place := place }

/-- A reader at the end of a cell. -/
def endCell (p : Progress) : Progress :=
  between p.records (p.cells ++ [p.text])

/-- A reader at the end of a record. -/
def endRecord (p : Progress) : Progress :=
  between (p.records ++ [p.cells ++ [p.text]]) []

/-- What a separator does outside of quotes: a comma, a line feed, or a carriage return before
one. -/
def separate? (p : Progress) (c : Char) : Option Progress :=
  if c = ',' then some p.endCell
  else if c = '\n' then some p.endRecord
  else if c = '\r' then some { p with place := .returned }
  else none

/-- What the next character does, if the rules allow it. -/
def step? (p : Progress) (c : Char) : Option Progress :=
  match p.place with
  | .fresh =>
    if c = '"' then some { p with place := .quoted }
    else (p.separate? c).or (some (p.take .plain c))
  | .plain => if c = '"' then none else (p.separate? c).or (some (p.take .plain c))
  | .quoted => if c = '"' then some { p with place := .closed } else some (p.take .quoted c)
  | .closed => if c = '"' then some (p.take .quoted c) else p.separate? c
  | .returned => if c = '\n' then some p.endRecord else none

/-- What characters do one after the other. -/
def run? (p : Progress) (cs : List Char) : Option Progress :=
  cs.foldlM step? p

/-- The records at the end of a text. The last one need not end in a line break. -/
def finish? (p : Progress) : Option (List (List (List Char))) :=
  match p.place with
  | .fresh => some (if p.cells = [] then p.records else p.endRecord.records)
  | .plain | .closed => some p.endRecord.records
  | .quoted | .returned => none

end Progress

/-- The records of a text, if it consists of comma-separated values. -/
def read? (text : String) : Option (List (List String)) :=
  (((Progress.between [] []).run? text.toList).bind Progress.finish?).map
    (List.map (List.map String.ofList))

/-! ### What a reader finds in a cell -/

/-- A cell shows a text in quotes, or as it is if no character of the text has a meaning. -/
def Shows (cell text : List Char) : Prop :=
  cell = quote text ∨ cell = text ∧ ∀ c ∈ text, isSpecial c = false

/-- A text is shown by its cell. -/
lemma shows_cell (text : List Char) : Shows (cell text) text := by
  unfold cell
  split
  case isTrue => exact .inl rfl
  case isFalse h =>
    refine .inr ⟨rfl, fun c hc => ?_⟩
    simpa using fun hspecial => h (List.any_eq_true.2 ⟨c, hc, hspecial⟩)

/-- A text is shown in quotes. -/
lemma shows_quote (text : List Char) : Shows (quote text) text := .inl rfl

/-- Nothing is shown by nothing. -/
lemma shows_nil : Shows [] [] := .inr ⟨rfl, nofun⟩

/-- Commas, quotes and line breaks have a meaning in a text of cells, and other characters have
none. -/
lemma isSpecial_eq_false {c : Char} :
    isSpecial c = false ↔ c ≠ ',' ∧ c ≠ '"' ∧ c ≠ '\n' ∧ c ≠ '\r' := by
  simp [isSpecial, and_assoc]

namespace Progress

variable {p : Progress} {c : Char} {cs rest : List Char}

/-- A reader takes the first character and then the others. -/
lemma run?_cons : p.run? (c :: cs) = (p.step? c).bind (·.run? cs) :=
  List.foldlM_cons

/-- In quotes a reader takes every text in which the quotes are doubled.

**Proof sketch.** Induction on the text. A quote is doubled and takes two steps, out of the quotes
and back into them; any other character takes one. -/
lemma run?_doubled (h : p.place = .quoted) (text : List Char) :
    p.run? ((text.flatMap fun c => if c = '"' then ['"', '"'] else [c]) ++ rest) =
      ({ p with text := p.text ++ text } : Progress).run? rest := by
  induction text generalizing p with
  | nil => simp
  | cons c text ih =>
    have htake : (p.take .quoted c).place = .quoted := rfl
    have hnext := ih htake
    rw [List.flatMap_cons, List.append_assoc]
    by_cases hc : c = '"'
    · subst hc
      have hopen : p.step? '"' = some { p with place := .closed } := by simp [step?, h]
      have hdouble : ({ p with place := .closed } : Progress).step? '"' =
          some (p.take .quoted '"') := by simp [step?, take]
      rw [if_pos rfl, List.cons_append, run?_cons, hopen, Option.bind_some, List.cons_append,
        run?_cons, hdouble, Option.bind_some, List.nil_append, hnext]
      simp [take, h]
    · have hstep : p.step? c = some (p.take .quoted c) := by simp [step?, h, hc]
      rw [if_neg hc, List.cons_append, List.nil_append, run?_cons, hstep, Option.bind_some, hnext]
      simp [take, h]

/-- Outside of quotes a reader takes every text without characters that have a meaning.

**Proof sketch.** Induction on the text, one step for each character. -/
lemma run?_plain (h : p.place = .plain) (text : List Char)
    (htext : ∀ c ∈ text, isSpecial c = false) :
    p.run? (text ++ rest) = ({ p with text := p.text ++ text } : Progress).run? rest := by
  induction text generalizing p with
  | nil => simp
  | cons c text ih =>
    obtain ⟨hcomma, hquote, hfeed, hreturn⟩ := isSpecial_eq_false.1 (htext c List.mem_cons_self)
    have hstep : p.step? c = some (p.take .plain c) := by
      simp [step?, separate?, h, hcomma, hquote, hfeed, hreturn]
    have htake : (p.take .plain c).place = .plain := rfl
    rw [List.cons_append, run?_cons, hstep, Option.bind_some,
      ih htake fun c' hc' => htext c' (List.mem_cons_of_mem _ hc')]
    simp [take, h]

/-- After a cell a reader has its text, and a separator comes next.

**Proof sketch.** A cell in quotes is taken up to its closing quote, and one without quotes
character by character. In either place the separator ends the cell. -/
lemma run?_cell {cell text : List Char} (h : Shows cell text) (records : List (List (List Char)))
    (cells : List (List Char)) (hc : c = ',' ∨ c = '\n') :
    (between records cells).run? (cell ++ c :: rest) =
      ((⟨records, cells, text, .plain⟩ : Progress).separate? c).bind (·.run? rest) := by
  have hquote : c ≠ '"' := by rcases hc with rfl | rfl <;> decide
  have hseparate : ∀ q : Progress, q.place = .fresh ∨ q.place = .plain ∨ q.place = .closed →
      q.step? c = q.separate? c := by
    intro q hq
    rcases hc with rfl | rfl <;> rcases hq with hq | hq | hq <;> simp [step?, separate?, hq]
  have hplace : ∀ place, (⟨records, cells, text, place⟩ : Progress).separate? c =
      (⟨records, cells, text, .plain⟩ : Progress).separate? c := by
    intro place
    rcases hc with rfl | rfl <;> rfl
  rcases h with rfl | ⟨rfl, hplain⟩
  · have hopen : (between records cells).step? '"' = some ⟨records, cells, [], .quoted⟩ := rfl
    have hclose : (⟨records, cells, text, .quoted⟩ : Progress).step? '"' =
        some ⟨records, cells, text, .closed⟩ := rfl
    have hquoted : (⟨records, cells, [], .quoted⟩ : Progress).place = .quoted := rfl
    rw [quote, List.cons_append, List.cons_append, List.append_assoc, run?_cons, hopen,
      Option.bind_some, run?_doubled hquoted, List.nil_append, List.singleton_append, run?_cons,
      hclose, Option.bind_some, run?_cons, hseparate _ (.inr (.inr rfl)), hplace]
  · cases cell with
    | nil => rw [List.nil_append, run?_cons, hseparate _ (.inl rfl), between, hplace]
    | cons d ds =>
      obtain ⟨hcomma, hquote', hfeed, hreturn⟩ :=
        isSpecial_eq_false.1 (hplain d List.mem_cons_self)
      have hstart : (between records cells).step? d = some ⟨records, cells, [d], .plain⟩ := by
        simp [step?, separate?, between, take, hcomma, hquote', hfeed, hreturn]
      have hin : (⟨records, cells, [d], .plain⟩ : Progress).place = .plain := rfl
      have hrest : ∀ c ∈ ds, isSpecial c = false := fun c' hc' =>
        hplain c' (List.mem_cons_of_mem _ hc')
      rw [List.cons_append, run?_cons, hstart, Option.bind_some, run?_plain hin ds hrest,
        List.singleton_append, run?_cons, hseparate _ (.inr (.inl rfl))]

end Progress

/-! ### What a reader finds in lines -/

open Progress

/-- A reader finds in a line the texts that its cells show.

**Proof sketch.** Induction on the cells. A comma ends each cell but the last one, which the line
break ends. -/
lemma run_record {row texts : List (List Char)} (h : List.Forall₂ Shows row texts)
    (hrow : row ≠ []) (records : List (List (List Char))) (cells : List (List Char))
    (rest : List Char) :
    (between records cells).run? (record row ++ rest) =
      (between (records ++ [cells ++ texts]) []).run? rest := by
  induction h generalizing cells with
  | nil => exact absurd rfl hrow
  | @cons cell text row texts hcell hrest ih =>
    cases hrest with
    | nil =>
      have hend : (⟨records, cells, text, .plain⟩ : Progress).separate? '\n' =
          some (between (records ++ [cells ++ [text]]) []) := rfl
      have hline : record [cell] ++ rest = cell ++ '\n' :: rest := by simp [record]
      rw [hline, run?_cell hcell records cells (.inr rfl), hend, Option.bind_some]
    | @cons next nextText row texts hnext hrest =>
      have hend : (⟨records, cells, text, .plain⟩ : Progress).separate? ',' =
          some (between records (cells ++ [text])) := rfl
      have hline : record (cell :: next :: row) ++ rest =
          cell ++ ',' :: (record (next :: row) ++ rest) := by simp [record, List.intercalate]
      rw [hline, run?_cell hcell records cells (.inl rfl), hend, Option.bind_some,
        ih (List.cons_ne_nil _ _), List.append_assoc, List.singleton_append]

/-- A reader finds in lines the texts that their cells show, line by line. -/
theorem run_records {rows texts : List (List (List Char))}
    (h : List.Forall₂ (List.Forall₂ Shows) rows texts) (hrows : ∀ row ∈ rows, row ≠ [])
    (records : List (List (List Char))) :
    (between records []).run? (rows.flatMap record) = some (between (records ++ texts) []) := by
  induction h generalizing records with
  | nil => simp [run?]
  | @cons row text rows texts hrow hrest ih =>
    rw [List.flatMap_cons, run_record hrow (hrows row List.mem_cons_self), List.nil_append,
      ih fun r hr => hrows r (List.mem_cons_of_mem _ hr), List.append_assoc, List.singleton_append]

end Csv

/-! ### Exported tables -/

/-- The text of a value in an export: as people read it, or else texts as they are, nothing for
null, and the JSON text of any other value. -/
def plainText (rendering : Rendering) (format : Format) (value : Json) : String :=
  match rendering, value with
  | .formatted, v => format.render v
  | .raw, .string s => s
  | .raw, .null => ""
  | .raw, v => v.compress

/-- The cell of a value shows its text. -/
lemma shows_csvValue (rendering : Rendering) (format : Format) (value : Json) :
    Csv.Shows (csvValue rendering format value) (plainText rendering format value).toList := by
  cases rendering with
  | formatted => exact Csv.shows_cell _
  | raw =>
    cases value with
    | null => exact Csv.shows_nil
    | string s => exact Csv.shows_quote _
    | bool _ | number _ | array _ | object _ => exact Csv.shows_cell _

namespace Table

/-- The titles of the columns of an export, behind that of the profiles. -/
def titles (t : Table) (rendering : Rendering) : List String :=
  profileColumn :: t.columns.map (·.title rendering)

/-- The texts of a row of an export, behind its profile. -/
def texts (t : Table) (rendering : Rendering) (row : Row) : List String :=
  row.profileId :: List.zipWith (fun h v => plainText rendering h.format v) t.columns row.values

/-- The cells of the header show the titles. -/
lemma shows_csvHeader (t : Table) (rendering : Rendering) :
    List.Forall₂ Csv.Shows (t.csvHeader rendering) ((t.titles rendering).map String.toList) := by
  unfold csvHeader titles
  rw [List.map_cons, List.map_map]
  refine .cons (Csv.shows_cell _) ?_
  rw [List.forall₂_map_left_iff, List.forall₂_map_right_iff, List.forall₂_same]
  exact fun h _ => Csv.shows_cell _

/-- The cells of a row show its texts. -/
lemma shows_csvRow (t : Table) (rendering : Rendering) (row : Row) :
    List.Forall₂ Csv.Shows (t.csvRow rendering row)
      ((t.texts rendering row).map String.toList) := by
  unfold csvRow texts
  rw [List.map_cons, ← List.map_uncurry_zip_eq_zipWith, List.map_map]
  refine .cons (Csv.shows_cell _) ?_
  rw [List.forall₂_map_left_iff, List.forall₂_map_right_iff, List.forall₂_same]
  exact fun e _ => shows_csvValue rendering e.1.format e.2

/-- The export of a table consists of comma-separated values. A reader finds one record with the
titles and one record for each row, with its profile and the texts of its values; if each row has a
value for each column, all records have one cell more than there are columns.

**Proof sketch.** The cells of the export show the titles and texts, in quotes where a character has
a meaning. So line by line the reader finds these, and it ends between two records. -/
theorem read_csv (t : Table) (rendering : Rendering)
    (h : ∀ row ∈ t.rows, row.values.length = t.columns.length) :
    Csv.read? (t.csv rendering) = some (t.titles rendering :: t.rows.map (t.texts rendering)) ∧
      ∀ record ∈ t.titles rendering :: t.rows.map (t.texts rendering),
        record.length = t.columns.length + 1 := by
  constructor
  · have htext : (t.csv rendering).toList =
        (t.csvHeader rendering :: t.rows.map (t.csvRow rendering)).flatMap Csv.record := by
      rw [csv, String.toList_ofList, List.flatMap_cons, List.flatMap_map]
    have hshows : List.Forall₂ (List.Forall₂ Csv.Shows)
        (t.csvHeader rendering :: t.rows.map (t.csvRow rendering))
        ((t.titles rendering :: t.rows.map (t.texts rendering)).map (List.map String.toList)) := by
      rw [List.map_cons, List.map_map]
      refine .cons (t.shows_csvHeader rendering) ?_
      rw [List.forall₂_map_left_iff, List.forall₂_map_right_iff, List.forall₂_same]
      exact fun row _ => t.shows_csvRow rendering row
    have hrows : ∀ row ∈ t.csvHeader rendering :: t.rows.map (t.csvRow rendering), row ≠ [] := by
      simp [csvHeader, csvRow]
    have hback : (List.map String.ofList ∘ List.map String.toList) = id := by
      funext texts
      simp [Function.comp_def]
    rw [Csv.read?, htext, Csv.run_records hshows hrows, Option.bind_some, List.nil_append]
    simp only [Csv.Progress.finish?, Csv.Progress.between, if_true, Option.map_some]
    rw [List.map_map, hback, List.map_id]
  · intro record hrecord
    rcases List.mem_cons.1 hrecord with rfl | hrecord
    · simp [titles]
    · obtain ⟨row, hrow, rfl⟩ := List.mem_map.1 hrecord
      simp [texts, h row hrow]

/-! ### A table with separators in its cells -/

/-- Somebody with a comma, quotes and a line break in the name, a list and a missing value. -/
def contacts : Table where
  columns := [⟨"name", "Name, \"full\"", .text, false⟩, ⟨"tags", "Tags", .text, false⟩,
    ⟨"age", "Age", .number, true⟩]
  rows := [⟨"u\r1", [.string "Smith,\n\"Ann\"", .array [.string "new"], .null], false⟩]
  pagination := ⟨1, 50, 1, 1⟩
  degraded := false
  generatedAt := ⟨0, 0, Instant.zero_range, Instant.zero_lt_nanos⟩

/-- All of it is found in the export. -/
theorem read_contacts : (∀ row ∈ contacts.rows, row.values.length = contacts.columns.length) ∧
    Csv.read? (contacts.csv .raw) =
      some [["profileId", "name", "tags", "age"], ["u\r1", "Smith,\n\"Ann\"", "[\"new\"]", ""]] ∧
    Csv.read? (contacts.csv .formatted) =
      some [["profileId", "Name, \"full\"", "Tags", "Age"],
        ["u\r1", "Smith,\n\"Ann\"", "[\"new\"]", ""]] := by
  have hrows : ∀ row ∈ contacts.rows, row.values.length = contacts.columns.length := by decide
  exact ⟨hrows, (contacts.read_csv .raw hrows).1, (contacts.read_csv .formatted hrows).1⟩

end Table

end Cohort.Report
