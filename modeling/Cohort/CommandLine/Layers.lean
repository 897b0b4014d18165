import Cohort.CommandLine.Overlay
import Cohort.Settings
set_option autoImplicit false

/-!
# Layers of settings

Settings come from a file and, on top of it, from the environment. Each layer is a tree of entries;
a later layer replaces the entries that it names and keeps the others.

## Main definitions

* `Cohort.CommandLine.environmentLayer` — the entries of the environment.
* `Cohort.CommandLine.settings?` — the settings that a tree of entries means.
-/

namespace Cohort.CommandLine

/-! ### The environment -/

/-- A variable and its value, between which stands the first equals sign. -/
def readVariable? (s : String) : Option (String × String) :=
  let cs := s.toList
  let name := cs.takeWhile (· != '=')
  match cs.drop name.length with
  | _ :: value => some (String.ofList name, String.ofList value)
  | [] => none

/-- The variables of a text in which a null character follows each of them. -/
def readVariables (text : String) : List (String × String) :=
  (text.splitOn "\x00").filterMap readVariable?

/-- What the names of settings in the environment start with, in small letters. -/
def variableMark : List Char := "audience__".toList

/-- A name with dots where two underscores stand. -/
def dotted : List Char → List Char
  | '_' :: '_' :: cs => '.' :: dotted cs
  | c :: cs => c :: dotted cs
  | [] => []

/-- The path of a setting in the environment; other variables have none. -/
def settingPath? (name : String) : Option String :=
  let cs := (Text.lowercase name).toList
  if variableMark.isPrefixOf cs then some (String.ofList (dotted (cs.drop variableMark.length)))
  else none

/-- The value of a variable: a truth value, a number or a text. -/
def variableEntry (s : String) : Entry :=
  match Text.lowercase s with
  | "true" => .bool true
  | "false" => .bool false
  | _ =>
    match Numeral.integer? s.toList, Numeral.float? s.toList with
    | some n, _ => .integer n
    | none, some x => .float x
    | none, none => .text s

/-- The entries of the environment, under their paths. -/
def environmentLayer (environment : List (String × String)) : List (String × Entry) :=
  environment.filterMap fun (name, s) => (settingPath? name).map (·, variableEntry s)

/-! ### Settings -/

/-- The entries of a section under its names; a section may also be a list of them in order. -/
def namedEntries? (names : List String) : Entry → Option (List (String × Entry))
  | .table es => some es
  | .list items => some (names.zip items)
  | _ => none

/-- An entry of a section, or a default if it is not there. -/
def entryOr {α : Type} (es : List (String × Entry)) (name : String) (default : α)
    (read : Entry → Option α) : Option α :=
  match es.lookup name with
  | some e => read e
  | none => some default

/-- What is set for evaluations. -/
def evaluation? (e : Entry) : Option EvaluationSettings := do
  let held : EvaluationSettings := {}
  let es ← namedEntries? ["max_events_per_scan", "scan_time_budget_ms", "worker_threads"] e
  return { maxEventsPerScan := ← entryOr es "max_events_per_scan" held.maxEventsPerScan Entry.toNat?
           scanTimeBudget := ← entryOr es "scan_time_budget_ms" held.scanTimeBudget Entry.toNat?
           workerThreads := ← entryOr es "worker_threads" held.workerThreads Entry.toNat? }

/-- What is set for the pages of reports. -/
def paging? (e : Entry) : Option Report.Paging := do
  let held := ({} : Settings).reporting
  let es ← namedEntries? ["default_page_size", "max_page_size"] e
  return { defaultSize := ← entryOr es "default_page_size" held.defaultSize Entry.toNat?
           maxSize := ← entryOr es "max_page_size" held.maxSize Entry.toNat? }

/-- The settings that a tree of entries means. -/
def settings? (e : Entry) : Option Settings := do
  let held : Settings := {}
  let es ← namedEntries? ["node_id", "evaluation", "reporting"] e
  return { nodeId := ← entryOr es "node_id" held.nodeId Entry.toText?
           evaluation := ← entryOr es "evaluation" held.evaluation evaluation?
           reporting := ← entryOr es "reporting" held.reporting paging? }

end Cohort.CommandLine
