import Cohort.Report.Table
import Cohort.Wire.Data
set_option autoImplicit false

/-!
# Reports in JSON

The members of what a column shows stand among those of the column itself.

## Main definitions

* `ofDocument?` and `toJson` of reports and report tables.
-/

namespace Cohort.Report

open Json (Document)
open Wire (Record)

/-! ### Submitted reports -/

namespace Source.Spec

/-- The words for what a column shows. -/
def words : List String := ["property", "people_metric"]

/-- What a column shows. -/
def ofDocument? (d : Document) : Option Spec := do
  let t ← Wire.tagged words true d
  match t.tag with
  | "property" =>
    let r ← Record.read? ["property"] t.rest
    return .property (← r.required "property" Wire.text)
  | "people_metric" =>
    let r ← Record.read? ["metric"] t.rest
    return .metric (← r.required "metric" (Aggregate.Spec.ofDocument? true))
  | _ => none

/-- The members that say what a column shows. -/
def members : Spec → List (String × Json)
  | .property name => [("type", .string "property"), ("property", .string name)]
  | .metric a => [("type", .string "people_metric"), ("metric", a.toJson)]

end Source.Spec

namespace Column.Spec

/-- The members of a column other than those that say what it shows. -/
def names : List String := ["key", "label", "format"]

/-- A column. -/
def ofDocument? : Document → Option Spec
  | .object members => do
    let r ← Record.collect? names id members
    return { key := ← r.required "key" Wire.text
             label := ← r.optional "label" Wire.text
             source := ← Source.Spec.ofDocument? (.object (members.filter (·.1 ∉ names)))
             format := ← r.optional "format" (Wire.word Format.ofName?) }
  | _ => none

/-- The JSON form of a column. -/
def toJson (s : Spec) : Json :=
  .ofMembers ([("key", .string s.key), ("label", .ofOption .string s.label),
    ("format", .ofOption (.string ·.name) s.format)] ++ s.source.members)

end Column.Spec

namespace Sort.Spec

/-- The column to sort by. -/
def ofDocument? (d : Document) : Option Spec := do
  let r ← Record.read? ["column", "order"] d
  return { column := ← r.required "column" Wire.text
           direction := ← r.orElse "order" .ascending (Wire.word Direction.ofName?) }

/-- The JSON form of the column to sort by. -/
def toJson (s : Spec) : Json :=
  .ofMembers [("column", .string s.column), ("order", .string s.direction.name)]

end Sort.Spec

namespace Spec

/-- A report. -/
def ofDocument? (d : Document) : Option Spec := do
  let r ← Record.read? ["columns", "sort", "page", "pageSize", "segmentId"] d
  return { columns := ← r.required "columns" (Wire.list Column.Spec.ofDocument?)
           sort := ← r.optional "sort" Sort.Spec.ofDocument?
           page := ← r.optional "page" Wire.nat64
           pageSize := ← r.optional "pageSize" Wire.nat64
           segmentId := ← r.optional "segmentId" Wire.uuid }

/-- The JSON form of a report. -/
def toJson (s : Spec) : Json :=
  .ofMembers [("columns", .array (s.columns.map Column.Spec.toJson)),
    ("sort", .ofOption Sort.Spec.toJson s.sort), ("page", .ofOption (.ofInt ·) s.page),
    ("pageSize", .ofOption (.ofInt ·) s.pageSize),
    ("segmentId", .ofOption (.string ·.write) s.segmentId)]

/-- The report of a JSON text. -/
def ofText? (text : String) : Option Spec :=
  Wire.ofText? ofDocument? text

end Spec

/-! ### Tables -/

namespace Header

/-- What is told about a column. -/
def ofDocument? (d : Document) : Option Header := do
  let r ← Record.read? ["key", "label", "format", "numeric"] d
  return { key := ← r.required "key" Wire.text
           label := ← r.required "label" Wire.text
           format := ← r.required "format" (Wire.word Format.ofName?)
           numeric := ← r.required "numeric" Wire.bool }

/-- The JSON form of what is told about a column. -/
def toJson (h : Header) : Json :=
  .ofMembers [("key", .string h.key), ("label", .string h.label),
    ("format", .string h.format.name), ("numeric", .bool h.numeric)]

end Header

namespace Row

/-- A row. -/
def ofDocument? (d : Document) : Option Row := do
  let r ← Record.read? ["profileId", "values", "degraded"] d
  return { profileId := ← r.required "profileId" Wire.text
           values := ← r.required "values" (Wire.list Wire.json)
           degraded := ← r.required "degraded" Wire.bool }

/-- The JSON form of a row. -/
def toJson (row : Row) : Json :=
  .ofMembers [("profileId", .string row.profileId), ("values", .array row.values),
    ("degraded", .bool row.degraded)]

end Row

namespace Pagination

/-- Where a page lies. -/
def ofDocument? (d : Document) : Option Pagination := do
  let r ← Record.read? ["page", "pageSize", "totalRows", "totalPages"] d
  return { page := ← r.required "page" Wire.nat64
           pageSize := ← r.required "pageSize" Wire.nat64
           totalRows := ← r.required "totalRows" Wire.nat64
           totalPages := ← r.required "totalPages" Wire.nat64 }

/-- The JSON form of where a page lies. -/
def toJson (p : Pagination) : Json :=
  .ofMembers [("page", .ofInt p.page), ("pageSize", .ofInt p.pageSize),
    ("totalRows", .ofInt p.totalRows), ("totalPages", .ofInt p.totalPages)]

end Pagination

namespace Table

/-- A table. -/
def ofDocument? (d : Document) : Option Table := do
  let r ← Record.read? ["columns", "rows", "pagination", "degraded", "generatedAt"] d
  return { columns := ← r.required "columns" (Wire.list Header.ofDocument?)
           rows := ← r.required "rows" (Wire.list Row.ofDocument?)
           pagination := ← r.required "pagination" Pagination.ofDocument?
           degraded := ← r.required "degraded" Wire.bool
           generatedAt := ← r.required "generatedAt" Wire.timestamp }

/-- The JSON form of a table. -/
def toJson (t : Table) : Json :=
  .ofMembers [("columns", .array (t.columns.map Header.toJson)),
    ("rows", .array (t.rows.map Row.toJson)), ("pagination", t.pagination.toJson),
    ("degraded", .bool t.degraded), ("generatedAt", .string t.generatedAt.write)]

end Table

end Cohort.Report
