import Cohort.DataType
import Cohort.Json.Coercion
set_option autoImplicit false

/-!
# Formats of report columns

A cell is shown as people read it: numbers with at most two places and groups of three digits,
amounts with exactly two, shares as percentages, lengths of time by their units. A value that does
not fit the format of its column is shown as plain text.

## Main definitions

* `Cohort.Report.Format` — how a column is shown.
* `Cohort.Report.Format.render` — a value as it is shown.
-/

namespace Cohort.Report

/-- How a column is shown. -/
inductive Format where
  /-- Numbers. -/
  | number
  /-- Amounts of money. -/
  | currency
  /-- Shares of one. -/
  | percentage
  /-- Numbers of seconds. -/
  | duration
  /-- Anything. -/
  | text
deriving DecidableEq, Repr

namespace Format

/-- The name of a format. -/
def name : Format → String
  | .number => "number"
  | .currency => "currency"
  | .percentage => "percentage"
  | .duration => "duration"
  | .text => "text"

/-- All formats. -/
def all : List Format := [.number, .currency, .percentage, .duration, .text]

/-- The format with a name. -/
def ofName? (word : String) : Option Format :=
  all.find? (·.name = word)

/-- The format of an attribute of a type, if a column names none. -/
def ofDataType : Option DataType → Format
  | some .number => .number
  | some .duration => .duration
  | _ => .text

end Format

/-! ### Numbers -/

/-- Digits with a comma before every group of three that others precede. -/
def groupDigits : List Char → List Char
  | [] => []
  | d :: ds =>
    if !ds.isEmpty && ds.length % 3 == 0 then d :: ',' :: groupDigits ds else d :: groupDigits ds

/-- A number with the digits before its point in groups. -/
def groupThousands (cs : List Char) : List Char :=
  groupDigits (cs.takeWhile (· ≠ '.')) ++ cs.dropWhile (· ≠ '.')

/-- A text without such characters at its end. -/
def dropAtEnd (unwanted : Char) (cs : List Char) : List Char :=
  (cs.reverse.dropWhile (· == unwanted)).reverse

/-- A magnitude with at most two places. -/
def trimmedPlaces (x : Float) : List Char :=
  dropAtEnd '.' (dropAtEnd '0' (Decimal.fixed x 2))

/-- A minus sign, if one is needed. -/
def minusIf (needed : Bool) : List Char :=
  if needed then ['-'] else []

/-- A number with at most two places. One that is shown as zero has no sign. -/
def writeNumber (x : Float) : List Char :=
  let digits := trimmedPlaces x
  minusIf (Decimal.isNegative x && digits != ['0']) ++ groupThousands digits

/-- An amount with two places. -/
def writeCurrency (x : Float) : List Char :=
  minusIf (Decimal.isNegative x) ++ '$' :: groupThousands (Decimal.fixed x 2)

/-- A share of one in percent. -/
def writePercentage (x : Float) : List Char :=
  writeNumber (x * 100.0) ++ ['%']

/-! ### Lengths of time -/

/-- The units of time by their letters, from the longest, with their seconds. -/
def durationUnits : List (Char × Nat) :=
  [('d', 86400), ('h', 3600), ('m', 60), ('s', 1)]

/-- A number of seconds in units, of which those that are not needed are left out. -/
def durationParts : List (Char × Nat) → Nat → List (Nat × Char)
  | [], _ => []
  | (letter, size) :: units, seconds =>
    if seconds / size = 0 then durationParts units seconds
    else (seconds / size, letter) :: durationParts units (seconds % size)

/-- The magnitude of a number of seconds as whole seconds, of which 64 bits hold the greatest. -/
def wholeSeconds (x : Float) : Nat :=
  min ((Decimal.Binary.ofFloat x).roundedMagnitude 0 .up) 0xFFFFFFFFFFFFFFFF

/-- A length of time by its units. -/
def writeDuration (x : Float) : List Char :=
  if wholeSeconds x = 0 then ['0', 's']
  else
    minusIf (Decimal.isNegative x) ++
      [' '].intercalate ((durationParts durationUnits (wholeSeconds x)).map fun part =>
        Nat.toDigits 10 part.1 ++ [part.2])

/-! ### Values -/

/-- A number in a format, if the format is one of numbers. -/
def Format.writeNumber? (x : Float) : Format → Option (List Char)
  | .number => some (writeNumber x)
  | .currency => some (writeCurrency x)
  | .percentage => some (writePercentage x)
  | .duration => some (writeDuration x)
  | .text => none

/-- A value as it is shown. Null is empty. -/
def Format.render (format : Format) (value : Json) : String :=
  match value.toNumber?.bind (format.writeNumber? ·) with
  | some cs => String.ofList cs
  | none => value.toText

end Cohort.Report
