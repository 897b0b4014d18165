import Cohort.Proofs.Json.Document
import Cohort.Proofs.Report.Pages
import Cohort.Proofs.Report.Rows
import Cohort.Report.Export
set_option relaxedAutoImplicit false
set_option autoImplicit false

/-!
# Records of a JSON export

The export of a table as JSON has one record for each row. A record holds the values of its row
under the keys of the columns and, under a name of its own, the profile. The keys of an accepted
report differ from one another, so no value takes the place of another one; but nothing keeps a key
from being the name of the profile, and then the value of that column is all that the record holds
under it.

## Main definitions

* `Cohort.Report.Table.cells` — the values of a row under the keys of the columns.
* `Cohort.Report.Table.Records` — what the record of a row holds.

## Main results

* `Cohort.Report.Table.records_jsonRow` — the record of a row in a table whose keys differ.
* `Cohort.Report.Plan.table_json` — the records of the export of an accepted report.
-/

namespace Cohort.Report

namespace Table

/-- The values of a row as they are exported, under the keys of the columns. -/
def cells (t : Table) (rendering : Rendering) (row : Row) : List (String × Json) :=
  (t.columns.zip row.values).map fun (h, v) => (h.key, jsonValue rendering h.format v)

/-- What the record of a row holds. -/
structure Records (t : Table) (rendering : Rendering) (row : Row) (fields : Json.Fields) :
    Prop where
  /-- No name occurs twice. -/
  names : (fields.map Prod.fst).Nodup
  /-- Every column has a value. -/
  keys : (t.cells rendering row).map Prod.fst = t.columns.map Header.key
  /-- Every value is there under the key of its column. -/
  cells : ∀ cell ∈ t.cells rendering row, cell ∈ fields
  /-- Nothing else is there but the profile. -/
  others : ∀ field ∈ fields,
    field ∈ t.cells rendering row ∨ field = (profileColumn, .string row.profileId)
  /-- The profile is there unless a column of its name has another value. -/
  profile : (profileColumn, .string row.profileId) ∈ fields ↔
    ∀ cell ∈ t.cells rendering row, cell.1 = profileColumn → cell.2 = .string row.profileId

variable {t : Table} {row : Row}

/-- A full row has a cell for each column, under its key. -/
lemma map_fst_cells (rendering : Rendering) (h : row.values.length = t.columns.length) :
    (t.cells rendering row).map Prod.fst = t.columns.map Header.key := by
  have hzip : (t.columns.zip row.values).map Prod.fst = t.columns :=
    List.map_fst_zip (by omega)
  rw [cells, List.map_map]
  conv_rhs => rw [← hzip]
  rw [List.map_map]
  rfl

/-- The record of a row in a table whose keys differ from one another.

**Proof sketch.** The profile is the first member and the values come after it, so under its name a
value counts before the profile. Among the values no name is repeated. -/
theorem records_jsonRow (rendering : Rendering) (hkeys : (t.columns.map Header.key).Nodup)
    (hvalues : row.values.length = t.columns.length) :
    ∃ fields, t.jsonRow rendering row = .object fields ∧ t.Records rendering row fields := by
  have hnames := map_fst_cells rendering hvalues
  have hnodup : ((t.cells rendering row).map Prod.fst).Nodup := hnames ▸ hkeys
  have hmem : ∀ field, field ∈
      Json.Fields.ofList ((profileColumn, .string row.profileId) :: t.cells rendering row) ↔
        field ∈ t.cells rendering row ∨ field = (profileColumn, .string row.profileId) ∧
          profileColumn ∉ (t.cells rendering row).map Prod.fst := fun field =>
    Json.Fields.mem_ofList_cons hnodup
  refine ⟨_, rfl, Json.Fields.nodup_ofList _, hnames, fun c hc => (hmem c).2 (.inl hc),
    fun field h => ((hmem field).1 h).imp id And.left, (hmem _).trans ?_⟩
  constructor
  · rintro (h | ⟨-, hfree⟩) c hc hname
    · exact congrArg Prod.snd (List.inj_on_of_nodup_map hnodup hc h hname)
    · exact absurd (hname ▸ List.mem_map_of_mem hc) hfree
  · intro h
    by_cases hfree : profileColumn ∈ (t.cells rendering row).map Prod.fst
    · obtain ⟨⟨_, v⟩, hc, rfl⟩ := List.mem_map.1 hfree
      exact .inl (h _ hc rfl ▸ hc)
    · exact .inr ⟨rfl, hfree⟩

end Table

namespace Plan

variable {paging : Paging} {snapshot : Snapshot} {spec : Spec} {plan : Plan}

/-- A row has a value for each column of its table. -/
lemma length_values_of_mem_rows {now : Instant} {subjects : List Subject} {row : Row}
    (h : row ∈ (plan.table now subjects).rows) :
    row.values.length = (plan.table now subjects).columns.length := by
  obtain ⟨s, -, hrow⟩ := plan.exists_row?_of_mem_rows now subjects h
  have hvalues : List.Forall₂ (fun _ _ => True) plan.columns row.values := by
    rw [(row?_eq_some hrow).2]
    exact Lookup.forall₂_mapM (fun _ _ _ => trivial) _
  rw [← hvalues.length_eq]
  exact (List.length_map _).symm

/-- The export of an accepted report as JSON has one record for each row, in the order of the rows.
It holds every value under the key of its column and nothing else but the profile; the profile is
there unless a column of its name has another value.

**Proof sketch.** The keys of an accepted report differ, and each row has a value for each column.
So every row has its record (`Table.records_jsonRow`), and the rows are written in their order. -/
theorem table_json (h : compile paging snapshot spec = .ok plan) (now : Instant)
    (subjects : List Subject) (rendering : Rendering) :
    ∃ records : List Json.Fields,
      (plan.table now subjects).json rendering = Json.pretty (.array (records.map .object)) ∧
        List.Forall₂ ((plan.table now subjects).Records rendering)
          (plan.table now subjects).rows records := by
  have hkeys : ((plan.table now subjects).columns.map Header.key).Nodup := by
    have hheaders : (plan.table now subjects).columns.map Header.key =
        plan.columns.map Column.key := List.map_map
    rw [hheaders]
    exact (compile_eq_ok.1 h).keys
  have hrows : ∀ row ∈ (plan.table now subjects).rows, ∃ fields,
      (plan.table now subjects).jsonRow rendering row = .object fields ∧
        (plan.table now subjects).Records rendering row fields := fun row hrow =>
    Table.records_jsonRow rendering hkeys (length_values_of_mem_rows hrow)
  choose! record hjson hrecords using hrows
  refine ⟨(plan.table now subjects).rows.map record, ?_, ?_⟩
  · rw [Table.json, List.map_map]
    exact congrArg (fun items => Json.pretty (.array items)) (List.map_congr_left hjson)
  · rw [List.forall₂_map_right_iff, List.forall₂_same]
    exact hrecords

/-! ### A report whose column takes the name of the profile -/

/-- The names of people in a column with a key. -/
def nameReport (key : String) : Spec :=
  ⟨[⟨key, none, .property "name", none⟩], none, none, none, none⟩

/-- The same report as it is accepted. -/
def namePlan (key : String) : Plan :=
  ⟨[⟨key, key, .property "name", .text, false⟩], none, 1, 50, none⟩

/-- Somebody whose name is Ann. -/
def ann : Subject where
  snapshot := .empty "p"
  profile := ⟨"u1", none, .ofList [("name", .string "Ann")], []⟩
  events := []
  limits := .unlimited
  now := epoch

/-- The only row shows the name. -/
lemma rows_namePlan (key : String) :
    ((namePlan key).table epoch [ann]).rows = [⟨"u1", [.string "Ann"], false⟩] := by
  have hvalue : ann.valueOf "name" = pure (.string "Ann") := Subject.valueOf_raw rfl
  have hrow : (namePlan key).row? ann = some ⟨"u1", [.string "Ann"], false⟩ := by
    simp only [row?, rowIn?, shows, namePlan, List.mapM_cons, List.mapM_nil, Source.valueOf, hvalue]
    rfl
  have hrows : ((namePlan key).table epoch [ann]).rows =
      pageOf 1 50 ([ann].filterMap (namePlan key).row?) := rfl
  rw [hrows, List.filterMap_cons_some hrow]
  rfl

/-- Under another key the profile is there. -/
theorem namePlan_json :
    compile ⟨50, 1000⟩ (.empty "p") (nameReport "name") = .ok (namePlan "name") ∧ ∃ fields,
      ((namePlan "name").table epoch [ann]).json .raw = Json.pretty (.array [.object fields]) ∧
        ("profileId", .string "u1") ∈ fields ∧ ("name", .string "Ann") ∈ fields := by
  have hcompile : compile ⟨50, 1000⟩ (.empty "p") (nameReport "name") = .ok (namePlan "name") := by
    decide
  obtain ⟨records, hjson, hrecords⟩ := table_json hcompile epoch [ann] .raw
  rw [rows_namePlan] at hrecords
  cases hrecords with
  | @cons _ fields _ rest hfields hrest =>
    cases hrest with
    | nil =>
      refine ⟨hcompile, fields, hjson, hfields.profile.2 ?_, hfields.cells _ ?_⟩
      · decide
      · decide

/-- Under the name of the profile the report is accepted as well, and then the profile is not
there. -/
theorem namePlan_overwrites :
    compile ⟨50, 1000⟩ (.empty "p") (nameReport "profileId") = .ok (namePlan "profileId") ∧
      ((namePlan "profileId").table epoch [ann]).rows.map Row.profileId = ["u1"] ∧
      ((namePlan "profileId").table epoch [ann]).json .raw =
        Json.pretty (.array [.object [("profileId", .string "Ann")]]) := by
  refine ⟨by decide, ?_, ?_⟩
  · rw [rows_namePlan]
    rfl
  · rw [Table.json, rows_namePlan]
    rfl

end Plan

end Cohort.Report
