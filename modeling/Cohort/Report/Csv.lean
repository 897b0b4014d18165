set_option autoImplicit false

/-!
# Comma-separated values

A record is a line of cells with commas between them. A cell that holds a comma, a quote or a line
break stands in quotes, and each quote inside is written twice.

## Main definitions

* `Cohort.Report.Csv.quote`, `Cohort.Report.Csv.cell` — a text as a cell.
* `Cohort.Report.Csv.record` — cells as a line.
-/

namespace Cohort.Report.Csv

/-- A text in quotes. -/
def quote (cs : List Char) : List Char :=
  '"' :: (cs.flatMap fun c => if c = '"' then ['"', '"'] else [c]) ++ ['"']

/-- Whether a character makes a cell need quotes. -/
def isSpecial (c : Char) : Bool :=
  c == ',' || c == '"' || c == '\n' || c == '\r'

/-- A text as a cell. -/
def cell (cs : List Char) : List Char :=
  if cs.any isSpecial then quote cs else cs

/-- Cells as a line. -/
def record (cells : List (List Char)) : List Char :=
  [','].intercalate cells ++ ['\n']

end Cohort.Report.Csv
