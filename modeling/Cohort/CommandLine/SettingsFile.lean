import Cohort.CommandLine.Ini
import Cohort.CommandLine.Json5
import Cohort.CommandLine.Ron
import Cohort.CommandLine.Toml.Reading
import Cohort.CommandLine.Yaml.Reading
import Cohort.Wire.Data
set_option autoImplicit false

/-!
# Settings files

A settings file is named in full or without its ending, and the ending says which format it is
written in. In every format the file holds a table of entries.

## Main definitions

* `Cohort.CommandLine.Format` — the formats of settings files.
* `Cohort.CommandLine.Format.read?` — the entries of a text in a format.
* `Cohort.CommandLine.Format.ofFileName?` — the format of a file by its name.
* `Cohort.CommandLine.extendedNames` — a name with each of the endings.
-/

namespace Cohort.CommandLine

/-! ### Formats -/

/-- The formats of settings files. -/
inductive Format where
  | toml
  | json
  | yaml
  | ini
  | ron
  | json5
deriving DecidableEq, Repr

namespace Format

/-- All endings of file names, each with its format. -/
def endings : List (String × Format) :=
  [("toml", toml), ("json", json), ("yaml", yaml), ("yml", yaml), ("ini", ini), ("ron", ron),
   ("json5", json5)]

/-- The entries of a JSON text, which is an object. -/
def readJson? (text : String) : Option (List (String × Entry)) :=
  ((Json.parse? Wire.nestingLimit text).bind Json.fields?).map Entry.ofFields

/-- A text without the mark of its byte order. -/
def withoutMark (text : String) : String :=
  match text.toList with
  | '\ufeff' :: cs => String.ofList cs
  | _ => text

/-- The entries of a text in a format. -/
def read? (f : Format) (text : String) : Option (List (String × Entry)) :=
  let read := match f with
    | toml => Toml.read?
    | json => readJson?
    | yaml => Yaml.read?
    | ini => Ini.read?
    | ron => Ron.read?
    | json5 => Json5.read?
  read (withoutMark text)

end Format

/-! ### Names of files -/

/-- The last part of a path, after its last slash. -/
def fileName (path : List Char) : List Char :=
  (path.reverse.takeWhile (· != '/')).reverse

/-- What follows the last point of a file name, which does not begin with that point. -/
def ending? (path : List Char) : Option String :=
  let ending := (fileName path).reverse.takeWhile (· != '.')
  if ending.length + 1 < (fileName path).length then some (String.ofList ending.reverse) else none

/-- The format of a file by its name. -/
def Format.ofFileName? (path : String) : Option Format := do
  endings.lookup (← ending? path.toList)

/-- The end of a path, backwards, without slashes and points that change nothing. -/
def dropSlashes : List Char → List Char
  | '/' :: cs => dropSlashes cs
  | '.' :: '/' :: cs => dropSlashes cs
  | cs => cs

/-- A path with each of the endings, and the format that it stands for. Paths that end in no name
are not extended. -/
def extendedNames (path : String) : List (String × Format) :=
  let base := (dropSlashes path.toList.reverse).reverse
  if fileName base ∈ [[], ['.'], ['.', '.']] then []
  else Format.endings.map fun (ending, f) => (String.ofList base ++ "." ++ ending, f)

end Cohort.CommandLine
