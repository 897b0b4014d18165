import Cohort.Report.Csv
import Cohort.Report.Table
set_option autoImplicit false

/-!
# Exports of report tables

A table is exported as comma-separated values or as JSON, either as people read it or with the
values as they are. As they are, texts always stand in quotes, so a table of comma-separated values
tells a text from any other value.

## Main definitions

* `Cohort.Report.Table.csv`, `Cohort.Report.Table.json` — the exports of a table.
-/

namespace Cohort.Report

/-- How the values of an export are written. -/
inductive Rendering where
  /-- As people read them. -/
  | formatted
  /-- As they are. -/
  | raw
deriving DecidableEq, Repr

/-- The name of the column that holds the profiles. -/
def profileColumn : String := "profileId"

/-! ### Comma-separated values -/

/-- The name of a column in the first line. -/
def Header.title (h : Header) : Rendering → String
  | .formatted => h.label
  | .raw => h.key

/-- A value as a cell. -/
def csvValue (rendering : Rendering) (format : Format) (value : Json) : List Char :=
  match rendering, value with
  | .formatted, v => Csv.cell (format.render v).toList
  | .raw, .string s => Csv.quote s.toList
  | .raw, .null => []
  | .raw, v => Csv.cell v.compress.toList

/-- The first line of a table. -/
def Table.csvHeader (t : Table) (rendering : Rendering) : List (List Char) :=
  Csv.cell profileColumn.toList :: t.columns.map fun h => Csv.cell (h.title rendering).toList

/-- The line of a row. -/
def Table.csvRow (t : Table) (rendering : Rendering) (row : Row) : List (List Char) :=
  Csv.cell row.profileId.toList ::
    (t.columns.zip row.values).map fun (h, v) => csvValue rendering h.format v

/-- A table as comma-separated values. -/
def Table.csv (t : Table) (rendering : Rendering) : String :=
  String.ofList (Csv.record (t.csvHeader rendering) ++
    t.rows.flatMap fun row => Csv.record (t.csvRow rendering row))

/-! ### JSON -/

/-- A value in a JSON export. -/
def jsonValue (rendering : Rendering) (format : Format) (value : Json) : Json :=
  match rendering with
  | .formatted => .string (format.render value)
  | .raw => value

/-- A row under the keys of the columns. A column under the name of the profile column takes its
place. -/
def Table.jsonRow (t : Table) (rendering : Rendering) (row : Row) : Json :=
  .ofMembers ((profileColumn, .string row.profileId) ::
    (t.columns.zip row.values).map fun (h, v) => (h.key, jsonValue rendering h.format v))

/-- A table as JSON, one object a row. -/
def Table.json (t : Table) (rendering : Rendering) : String :=
  Json.pretty (.array (t.rows.map (t.jsonRow rendering)))

end Cohort.Report
