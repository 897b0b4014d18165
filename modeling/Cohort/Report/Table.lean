import Cohort.Membership
import Cohort.Report.Basic
set_option autoImplicit false

/-!
# Report tables

The rows of a report are the profiles that it shows. Sorting puts rows without a value last in both
directions and rows with equal values in the order of their profiles; then one page is cut out.

## Main definitions

* `Cohort.Report.Row`, `Cohort.Report.Table` — what a report shows.
* `Cohort.Report.Plan.row?` — the row of a subject.
* `Cohort.Report.sortRows` — rows in order.
* `Cohort.Report.Plan.table` — the table of a report.
-/

namespace Cohort.Report

/-- What a report shows of a profile. -/
structure Row where
  /-- The profile. -/
  profileId : String
  /-- A value for each column. -/
  values : List Json
  /-- Whether a scan behind the values stopped early. -/
  degraded : Bool
deriving DecidableEq

/-- What the reader of a table is told about a column. -/
structure Header where
  /-- The name of the column in the report. -/
  key : String
  /-- The name that people see. -/
  label : String
  /-- How the column is shown. -/
  format : Format
  /-- Whether the column is sorted as numbers in any case. -/
  numeric : Bool
deriving DecidableEq

/-- Where a page lies among all rows. -/
structure Pagination where
  /-- The page, counted from one. -/
  page : Nat
  /-- The number of rows of a page. -/
  pageSize : Nat
  /-- The number of all rows. -/
  totalRows : Nat
  /-- The number of all pages. -/
  totalPages : Nat
deriving DecidableEq, Repr

/-- One page of a report. -/
structure Table where
  /-- The columns. -/
  columns : List Header
  /-- The rows of the page. -/
  rows : List Row
  /-- Where the page lies. -/
  pagination : Pagination
  /-- Whether a scan behind any row of the report stopped early. -/
  degraded : Bool
  /-- The present that the report was made at. -/
  generatedAt : Instant
deriving DecidableEq

/-! ### Rows -/

/-- The value that a source gives for a subject. -/
def Source.valueOf (source : Source) (s : Subject) : Lookup Json :=
  match source with
  | .property name => s.valueOf name
  | .metric a => s.aggregateValue a

/-- Whether a subject belongs into a report. -/
def Plan.shows (p : Plan) (s : Subject) : Lookup Bool :=
  match p.segment with
  | some g => return (← g.membershipIn s).matched
  | none => return true

/-- The row of a subject in the course of an evaluation, unless the report does not show it. -/
def Plan.rowIn? (p : Plan) (s : Subject) : Lookup (Option Row) := do
  if ← p.shows s then
    let values ← p.columns.mapM (·.source.valueOf s)
    return some ⟨s.profile.id, values, (← get).degraded⟩
  else return none

/-- The row of a subject, unless the report does not show it. -/
def Plan.row? (p : Plan) (s : Subject) : Option Row :=
  (p.rowIn? s Findings.none).1

/-! ### Order -/

/-- The value of a row in a column, null if there is none. -/
def Row.cell (row : Row) (column : Nat) : Json :=
  (row.values[column]?).getD .null

/-- Whether all values of a column are numbers or can be read as such. -/
def allNumbers (rows : List Row) (column : Nat) : Bool :=
  rows.all fun row => row.cell column = .null || (row.cell column).toNumber?.isSome

/-- How two values compare. As numbers, those that are none come after all that are. -/
def compareCells (numeric : Bool) (a b : Json) : Ordering :=
  match numeric, a.toNumber?, b.toNumber? with
  | true, some x, some y => compare (Decimal.totalKey x) (Decimal.totalKey y)
  | true, some _, none => .lt
  | true, none, some _ => .gt
  | _, _, _ => compare a.toText b.toText

/-- An order in a direction. -/
def Direction.apply : Direction → Ordering → Ordering
  | .ascending, o => o
  | .descending, o => o.swap

/-- How two rows compare by a column. -/
def compareRows (column : Nat) (direction : Direction) (numeric : Bool) (a b : Row) : Ordering :=
  let left := a.cell column
  let right := b.cell column
  if left = .null && right ≠ .null then .gt
  else if left ≠ .null && right = .null then .lt
  else if left = .null then compare a.profileId b.profileId
  else (direction.apply (compareCells numeric left right)).then (compare a.profileId b.profileId)

/-- Rows sorted by a column. A column that is not numeric by its type is still sorted as numbers if
all its values can be read as such. -/
def sortRows (column : Nat) (direction : Direction) (numeric : Bool) (rows : List Row) :
    List Row :=
  let asNumbers := numeric || allNumbers rows column
  rows.mergeSort fun a b => compareRows column direction asNumbers a b != .gt

/-- Rows in the order of a report. -/
def Plan.order (p : Plan) (rows : List Row) : List Row :=
  match p.sort with
  | some (column, direction) =>
    sortRows column direction (p.columns[column]?.any Column.numeric) rows
  | none => rows

/-! ### Pages -/

/-- The number of pages for a number of rows. -/
def pagesFor (rows pageSize : Nat) : Nat :=
  (rows + pageSize - 1) / pageSize

/-- One page of rows; pages are counted from one. -/
def pageOf (page pageSize : Nat) (rows : List Row) : List Row :=
  (rows.drop ((page - 1) * pageSize)).take pageSize

/-- What the reader of a table is told about a column. -/
def Column.header (c : Column) : Header :=
  ⟨c.key, c.label, c.format, c.numeric⟩

/-- The table of a report at a present. -/
def Plan.table (p : Plan) (now : Instant) (subjects : List Subject) : Table :=
  let rows := p.order (subjects.filterMap p.row?)
  { columns := p.columns.map Column.header
    rows := pageOf p.page p.pageSize rows
    pagination := ⟨p.page, p.pageSize, rows.length, pagesFor rows.length p.pageSize⟩
    degraded := rows.any Row.degraded
    generatedAt := now }

end Cohort.Report
