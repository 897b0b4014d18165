import Cohort.Registry.Snapshot
import Cohort.Report.Format
set_option autoImplicit false

/-!
# Reports

A report shows attributes and metrics of profiles in columns, one profile a row. It may be sorted
by one column, cut into pages and restricted to a segment.

## Main definitions

* `Cohort.Report.Spec`, `Cohort.Report.Column.Spec` — a report as it is submitted.
* `Cohort.Report.Plan`, `Cohort.Report.Column` — the same after it was accepted.
* `Cohort.Report.compile` — the checks of a submitted report.
* `Cohort.Report.Plan.eventScope?` — which events a report reads at most.
-/

namespace Cohort.Report

/-! ### Reports as they are submitted -/

/-- What a column shows, as it is submitted. -/
inductive Source.Spec where
  /-- An attribute. -/
  | property (name : String)
  /-- An aggregate of the events. -/
  | metric (aggregate : Aggregate.Spec)
deriving DecidableEq

/-- A column as it is submitted. -/
structure Column.Spec where
  /-- The name of the column in the report. -/
  key : String
  /-- The name that people see. -/
  label : Option String
  /-- What the column shows. -/
  source : Source.Spec
  /-- How the column is shown. -/
  format : Option Format
deriving DecidableEq

/-- The direction of a sort. -/
inductive Direction where
  | ascending
  | descending
deriving DecidableEq, Repr

/-- The name of a direction. -/
def Direction.name : Direction → String
  | .ascending => "ascending"
  | .descending => "descending"

/-- The direction with a name. -/
def Direction.ofName? (word : String) : Option Direction :=
  [ascending, descending].find? (·.name = word)

/-- The column that a report is sorted by. -/
structure Sort.Spec where
  /-- The name of the column. -/
  column : String
  /-- The direction. -/
  direction : Direction
deriving DecidableEq

/-- A report as it is submitted. -/
structure Spec where
  /-- The columns. -/
  columns : List Column.Spec
  /-- The column to sort by. -/
  sort : Option Sort.Spec
  /-- Which page is wanted, counted from one. -/
  page : Option Nat
  /-- The number of rows of a page. -/
  pageSize : Option Nat
  /-- The segment whose members are shown. -/
  segmentId : Option Uuid
deriving DecidableEq

/-! ### Accepted reports -/

/-- What a column shows. -/
inductive Source where
  /-- An attribute. -/
  | property (name : String)
  /-- An aggregate of the events. -/
  | metric (aggregate : Aggregate)
deriving DecidableEq

/-- A column of a report. -/
structure Column where
  /-- The name of the column in the report. -/
  key : String
  /-- The name that people see. -/
  label : String
  /-- What the column shows. -/
  source : Source
  /-- How the column is shown. -/
  format : Format
  /-- Whether the column is sorted as numbers in any case. -/
  numeric : Bool
deriving DecidableEq

/-- The bounds of pages. -/
structure Paging where
  /-- The number of rows of a page if none is asked for. -/
  defaultSize : Nat
  /-- The greatest number of rows of a page. -/
  maxSize : Nat
deriving DecidableEq, Repr

/-- A report that was accepted. -/
structure Plan where
  /-- The columns. -/
  columns : List Column
  /-- The place of the column to sort by, and the direction. -/
  sort : Option (Nat × Direction)
  /-- Which page is wanted, counted from one. -/
  page : Nat
  /-- The number of rows of a page. -/
  pageSize : Nat
  /-- The segment whose members are shown. -/
  segment : Option Segment
deriving DecidableEq

/-- The format of a metric if a column names none. -/
def metricFormat (numeric : Bool) : Format :=
  if numeric then .number else .text

/-- The column that a submitted one means. Without a label people see its key, and without a format
the type of what it shows decides. -/
def Column.compile (snapshot : Snapshot) (spec : Column.Spec) : Result Column := do
  let key := Text.trim spec.key
  if key.isEmpty then throw (.validation .emptyColumnKey)
  match spec.source with
  | .property name =>
    let dataType := snapshot.dataTypeOf? name
    return { key, label := spec.label.getD key, source := .property name,
             format := spec.format.getD (.ofDataType dataType),
             numeric := dataType.any DataType.isNumeric }
  | .metric a =>
    let aggregate ← Aggregate.compile a
    let numeric := aggregate.operation.isNumeric
    return { key, label := spec.label.getD key, source := .metric aggregate,
             format := spec.format.getD (metricFormat numeric), numeric }

/-- The first key that an earlier column has too. -/
def repeatedKey? (seen : List String) : List Column → Option String
  | [] => none
  | c :: cs => if c.key ∈ seen then some c.key else repeatedKey? (c.key :: seen) cs

/-- The place of the column to sort by. -/
def readSort (columns : List Column) (sort : Sort.Spec) : Result (Nat × Direction) :=
  match columns.findIdx? (·.key = sort.column) with
  | some place => .ok (place, sort.direction)
  | none => .error (.validation (.unknownSortColumn sort.column))

/-- The segment that a report is restricted to. -/
def readSegment (snapshot : Snapshot) (id : Uuid) : Result Segment :=
  match snapshot.segments.get? id with
  | some segment => .ok segment
  | none => .error (.notFound .segment id.write)

/-- The number of rows of a page: at least one and at most as many as allowed. -/
def Paging.sizeOf (paging : Paging) (wanted : Option Nat) : Nat :=
  max 1 (min (wanted.getD paging.defaultSize) (max paging.maxSize 1))

/-- The report that a submitted one means. The columns are checked first, then whether their keys
differ, the column to sort by and the segment. -/
def compile (paging : Paging) (snapshot : Snapshot) (spec : Spec) : Result Plan := do
  if spec.columns.isEmpty then throw (.validation .noColumns)
  let columns ← spec.columns.mapM (Column.compile snapshot)
  if let some key := repeatedKey? [] columns then throw (.validation (.duplicateColumn key))
  let sort ← spec.sort.mapM (readSort columns)
  let segment ← spec.segmentId.mapM (readSegment snapshot)
  return { columns, sort, segment, page := max 1 (spec.page.getD 1),
           pageSize := paging.sizeOf spec.pageSize }

/-! ### Events that a report reads -/

/-- The aggregate of a column that shows one. -/
def Column.aggregate? (c : Column) : Option Aggregate :=
  match c.source with
  | .metric a => some a
  | .property _ => none

/-- Whether an aggregate counts events of the same name and timeframe as another. -/
def sameEvents (a b : Aggregate) : Bool :=
  a.eventName = b.eventName && a.timeframe = b.timeframe

/-- The aggregate whose event name and timeframe bound all events that a report reads, if there is
one: a report on members of a segment or on attributes may read any event. -/
def Plan.eventScope? (p : Plan) : Option Aggregate :=
  if p.segment.isSome then none
  else match p.columns.map Column.aggregate? with
    | some first :: rest => if rest.all (·.any (sameEvents · first)) then some first else none
    | _ => none

end Cohort.Report
