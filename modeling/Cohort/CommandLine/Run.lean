import Cohort.CommandLine.Arguments
import Cohort.CommandLine.SettingsFile
import Cohort.Report.Export
import Cohort.Service.Report
import Cohort.Wire.Answer
set_option autoImplicit false

/-!
# Runs

A run loads the fixture into an empty registry and store and answers one command from them. What it
needs of the world is given to it: the texts of files, the environment, the present and the
identifiers of new segments.

## Main definitions

* `Cohort.CommandLine.World` — what a run needs of the world.
* `Cohort.CommandLine.Failure` — why a run fails.
* `Cohort.CommandLine.Invocation.run` — the answer of a run.
-/

namespace Cohort.CommandLine

/-- What a run needs of the world. -/
structure World where
  /-- The text of a file, if it can be read. -/
  file? : String → Option String
  /-- The environment. -/
  environment : List (String × String)
  /-- The present, unless the arguments set one. -/
  now : Instant
  /-- The identifiers and the time of new segments. -/
  stamp : Nat → Stamp

/-- Why a run fails. -/
inductive Failure where
  /-- No fixture is named. -/
  | noFixture
  /-- The fixture is not there or holds no fixture. -/
  | unreadableFixture (path : String)
  /-- The report is not there. -/
  | unreadableReport (path : String)
  /-- The report file holds no report. -/
  | malformedReport
  /-- There is no segment with a name. -/
  | unknownSegment (name project : String)
  /-- A definition or a request is refused. -/
  | refused (error : Error)
deriving DecidableEq

/-- The wording of a failure. -/
def Failure.message : Failure → String
  | .noFixture => "--fixture (or AUDIENCE_FIXTURE) is required"
  | .unreadableFixture path => "reading fixture " ++ path
  | .unreadableReport path => "reading report definition " ++ path
  | .malformedReport => "malformed report definition"
  | .unknownSegment name project =>
    "no segment named " ++ quoted name ++ " in project " ++ quoted project
  | .refused error => error.message

/-- The answer of a run. -/
inductive Answer where
  | summary (s : Fixture.Summary)
  | sweep (s : Sweep)
  | membership (m : Membership)
  | computedValue (v : ComputedValue)
  | computedValues (vs : Index String Json)
  | report (text : String)
deriving DecidableEq

/-- The text of an answer that took so many milliseconds. -/
def Answer.write (elapsedMillis : Nat) : Answer → String
  | .summary s => s.toJson.pretty
  | .sweep s => (s.toJson elapsedMillis).pretty
  | .membership m => m.toJson.pretty
  | .computedValue v => v.toJson.pretty
  | .computedValues vs => (Json.object vs.entries).pretty
  | .report text => text

/-! ### Settings -/

/-- The names of files that may hold the settings under a name: the name itself, or the name with
one of the endings. -/
def settingsFiles (name : String) : List String :=
  name :: (extendedNames name).map Prod.fst

/-- The entries of the settings file with a name; without a name there are none. A file of just
that name is taken before those with an ending after it, even if its format is not known. -/
def namedLayer? (w : World) : Option String → Option (List (String × Entry))
  | none => some []
  | some name =>
    match w.file? name with
    | some text => (Format.ofFileName? name).bind (·.read? text)
    | none => do
      let (text, f) ← (extendedNames name).findSome? fun (name, f) => (w.file? name).map (·, f)
      f.read? text

/-- The settings of the file and the environment. If either cannot be read, both are left out. -/
def layeredSettings (w : World) (name : Option String) : Settings :=
  let settings := do
    let layer ← namedLayer? w name
    settings? (addLayer (environmentLayer w.environment) (addLayer layer (.table [])))
  settings.getD {}

/-- The settings of a run: the options stand above all else. -/
def Invocation.settings (i : Invocation) (w : World) : Settings :=
  let s := layeredSettings w i.config
  { s with evaluation :=
      { s.evaluation with
        workerThreads := i.workerThreads.getD s.evaluation.workerThreads
        maxEventsPerScan := i.maxEventsPerScan.getD s.evaluation.maxEventsPerScan } }

/-! ### Commands -/

/-- The segment that an identifier or a name means. A text that is an identifier is never a name. -/
def readSegment (s : Service) (project key : String) : Except Failure Uuid :=
  match Uuid.ofText? key with
  | some id => .ok id
  | none =>
    match (s.registry.snapshot project).segmentNamed? key with
    | some g => .ok g.id
    | none => .error (.unknownSegment key project)

/-- The answer of a request. -/
def answer {α : Type} (request : Service.Request α) : Except Failure α :=
  request.answer.1.mapError .refused

/-- The answer of a command. -/
def Command.answer (w : World) (s : Service) (summary : Fixture.Summary) :
    Command → Except Failure Answer
  | .validate => return .summary summary
  | .sweep key => do
    let id ← readSegment s summary.projectId key
    return .sweep (← CommandLine.answer (s.sweep summary.projectId id false))
  | .matches profile key => do
    let id ← readSegment s summary.projectId key
    return .membership (← CommandLine.answer (s.membership summary.projectId profile id))
  | .compute profile (some field) =>
    return .computedValue
      (← CommandLine.answer (s.computedValue summary.projectId profile field))
  | .compute profile none =>
    return .computedValues (← CommandLine.answer (s.computedValues summary.projectId profile))
  | .report path format raw => do
    let some text := w.file? path | throw (.unreadableReport path)
    let some spec := Report.Spec.ofText? text | throw .malformedReport
    let table ← CommandLine.answer (s.report summary.projectId spec false)
    let rendering := if raw then .raw else .formatted
    match format with
    | .csv => return .report (table.csv rendering)
    | .json => return .report (table.json rendering)

/-- The fixture of a file. -/
def readFixture (w : World) : Option String → Except Failure Fixture
  | none => .error .noFixture
  | some path =>
    match (w.file? path).bind Fixture.ofText? with
    | some fixture => .ok fixture
    | none => .error (.unreadableFixture path)

/-- The answer of a run. -/
def Invocation.run (i : Invocation) (w : World) : Except Failure Answer := do
  let fixture ← readFixture w i.fixture
  match fixture.load w.stamp .empty .empty with
  | (.error e, _, _) => throw (.refused e)
  | (.ok summary, registry, store) =>
    i.command.answer w ⟨i.settings w, registry, store.source, i.now.getD w.now⟩ summary

end Cohort.CommandLine
