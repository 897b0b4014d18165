import Cohort.CommandLine.Layers
set_option autoImplicit false

/-!
# Arguments

The arguments are options and one command with options of its own. Options that concern every
command may stand before or after it, and some of them may be given in the environment instead. An
option after the command wins over the same option before it, and either over the environment.

## Main definitions

* `Cohort.CommandLine.Command` — what is to be done.
* `Cohort.CommandLine.Invocation` — the arguments after they were read.
* `Cohort.CommandLine.Invocation.read` — the reading of arguments.
-/

namespace Cohort.CommandLine

/-- How a report is written. -/
inductive OutputFormat where
  | csv
  | json
deriving DecidableEq, Repr

/-- The format with a name. -/
def OutputFormat.ofName? : String → Option OutputFormat
  | "csv" => some .csv
  | "json" => some .json
  | _ => none

/-- What is to be done. -/
inductive Command where
  /-- Load the fixture and tell what it brought in. -/
  | validate
  /-- Decide a segment for every profile. -/
  | sweep (segment : String)
  /-- Decide a segment for a profile. -/
  | matches (profile segment : String)
  /-- Compute one field of a profile, or all. -/
  | compute (profile : String) (field : Option String)
  /-- Make a report. -/
  | report (spec : String) (format : OutputFormat) (raw : Bool)
deriving DecidableEq, Repr

/-- The arguments after they were read. -/
structure Invocation where
  /-- The file of the fixture. -/
  fixture : Option String
  /-- The name of the settings file. -/
  config : Option String
  /-- The number of profiles evaluated side by side. -/
  workerThreads : Option Nat
  /-- The number of events that a scan may look at. -/
  maxEventsPerScan : Option Nat
  /-- The present. -/
  now : Option Instant
  /-- What is to be done. -/
  command : Command

/-- Why nothing is done. -/
inductive Halt where
  /-- The arguments are not understood. -/
  | usage
  /-- Help is asked for. -/
  | help
  /-- The version is asked for. -/
  | version
deriving DecidableEq, Repr

/-- What the program is called, and its version. -/
def version : String := "audience-engine 0.1.0"

/-- How the program is used, line by line. -/
def usageLines : List String :=
  ["Usage: audience-engine [OPTIONS] <COMMAND>", "", "Commands:",
   "  validate",
   "  sweep --segment <SEGMENT>",
   "  matches --profile <PROFILE> --segment <SEGMENT>",
   "  compute --profile <PROFILE> [--field <FIELD>]",
   "  report --spec <SPEC> [--format csv|json] [--raw]", "", "Options:",
   "  --fixture <FIXTURE>",
   "  --config <CONFIG>",
   "  --worker-threads <WORKER_THREADS>",
   "  --max-events-per-scan <MAX_EVENTS_PER_SCAN>",
   "  --now <NOW>",
   "  -h, --help",
   "  -V, --version"]

/-- How the program is used. -/
def usage : String :=
  "\n".intercalate usageLines

/-! ### Options -/

/-- An option. -/
structure Flag where
  /-- The name, without its hyphens. -/
  name : String
  /-- Whether a value follows. -/
  takesValue : Bool
  /-- Whether a value is one of the option. -/
  accepts : String → Bool
  /-- The variable that may hold the value instead. -/
  fallback : Option String

/-- An option with any text as its value. -/
def textFlag (name : String) : Flag :=
  ⟨name, true, fun _ => true, none⟩

/-- An option with a path as its value, which is not empty. -/
def pathFlag (name : String) (fallback : Option String) : Flag :=
  ⟨name, true, fun s => !s.isEmpty, fallback⟩

/-- An option with a natural number as its value. -/
def numberFlag (name variableName : String) : Flag :=
  ⟨name, true, fun s => (Numeral.natural? s).isSome, some variableName⟩

/-- The options of every command. -/
def commonFlags : List Flag :=
  [pathFlag "fixture" (some "AUDIENCE_FIXTURE"),
   textFlag "config",
   numberFlag "worker-threads" "AUDIENCE__EVALUATION__WORKER_THREADS",
   numberFlag "max-events-per-scan" "AUDIENCE__EVALUATION__MAX_EVENTS_PER_SCAN",
   ⟨"now", true, fun s => (Instant.ofTimestamp? s).isSome, none⟩]

/-- The options of a command, if there is one with that name. -/
def commandFlags? : String → Option (List Flag)
  | "validate" => some []
  | "sweep" => some [textFlag "segment"]
  | "matches" => some [textFlag "profile", textFlag "segment"]
  | "compute" => some [textFlag "profile", textFlag "field"]
  | "report" =>
    some [pathFlag "spec" none, ⟨"format", true, fun s => (OutputFormat.ofName? s).isSome, none⟩,
      ⟨"raw", false, fun _ => false, none⟩]
  | _ => none

/-- The options that were given, with their values. -/
abbrev Given := List (String × String)

/-! ### Reading -/

/-- A word of the arguments. -/
inductive Word where
  /-- Two hyphens: no options follow. -/
  | stop
  /-- The name of an option, with a value if an equals sign follows. -/
  | option (name : String) (value : Option String)
  /-- Letters after one hyphen. -/
  | letters (cs : List Char)
  /-- Anything else. -/
  | plain

/-- What a word of the arguments is. -/
def Word.of (arg : String) : Word :=
  match arg.toList with
  | ['-', '-'] => .stop
  | '-' :: '-' :: cs =>
    match cs.dropWhile (· ≠ '=') with
    | '=' :: value => .option (String.ofList (cs.takeWhile (· ≠ '='))) (some (String.ofList value))
    | _ => .option (String.ofList cs) none
  | '-' :: c :: cs => .letters (c :: cs)
  | _ => .plain

/-- Whether a word cannot be the value of the option before it. -/
def Word.isOption : Word → Bool
  | .plain => false
  | _ => true

/-- One more option with its value. An option is given once, with a value of its own. -/
def give (flag : Flag) (value : String) (given : Given) : Except Halt Given :=
  if (given.lookup flag.name).isSome || (flag.takesValue && !flag.accepts value) then .error .usage
  else .ok (given ++ [(flag.name, value)])

/-- Reads options up to the first plain word, with what starts there. -/
def readFlags (flags : List Flag) (hasVersion : Bool) :
    Given → List String → Except Halt (Given × List String)
  | given, [] => .ok (given, [])
  | given, arg :: rest =>
    match Word.of arg with
    | .stop => if rest.isEmpty then .ok (given, []) else .error .usage
    | .letters ('h' :: _) => .error .help
    | .letters ('V' :: _) => .error (if hasVersion then .version else .usage)
    | .letters _ => .error .usage
    | .plain => .ok (given, arg :: rest)
    | .option "help" none => .error .help
    | .option "version" none => .error (if hasVersion then .version else .usage)
    | .option name value =>
      match flags.find? (·.name = name), value, rest with
      | none, _, _ => .error .usage
      | some flag, some value, rest => do
        if !flag.takesValue then throw .usage
        readFlags flags hasVersion (← give flag value given) rest
      | some flag, none, [] => do
        if flag.takesValue then throw .usage
        return (← give flag "" given, [])
      | some flag, none, next :: rest => do
        if flag.takesValue then
          if (Word.of next).isOption then throw .usage
          readFlags flags hasVersion (← give flag next given) rest
        else readFlags flags hasVersion (← give flag "" given) (next :: rest)
termination_by _ args => args.length

/-- Refuses the environment if it has a value for an option that is not one of the option. A given
option hides the environment. -/
def checkVariables (flags : List Flag) (environment : List (String × String)) (given : Given) :
    Except Halt Unit :=
  if flags.all fun flag => (given.lookup flag.name).isSome ||
      (flag.fallback.bind (environment.lookup ·)).all flag.accepts then .ok ()
  else .error .usage

/-- The value of an option. -/
def valueOf? (flags : List Flag) (environment : List (String × String)) (before after : Given)
    (name : String) : Option String :=
  (after.lookup name).or <| (before.lookup name).or <|
    ((flags.find? (·.name = name)).bind Flag.fallback).bind (environment.lookup ·)

/-- The value of an option that has to be there. -/
def require {α : Type} : Option α → Except Halt α
  | some a => .ok a
  | none => .error .usage

/-- The command with a name and options. -/
def readCommand (name : String) (given : Given) : Except Halt Command :=
  match name with
  | "validate" => return .validate
  | "sweep" => return .sweep (← require (given.lookup "segment"))
  | "matches" =>
    return .matches (← require (given.lookup "profile")) (← require (given.lookup "segment"))
  | "compute" => return .compute (← require (given.lookup "profile")) (given.lookup "field")
  | "report" =>
    return .report (← require (given.lookup "spec"))
      (((given.lookup "format").bind OutputFormat.ofName?).getD .json)
      (given.lookup "raw").isSome
  | _ => .error .usage

/-- Whether help on a command is asked for that is there. -/
def isHelpTopic : List String → Bool
  | [] => true
  | name :: _ => name = "help" || (commandFlags? name).isSome

/-- The reading of arguments in an environment. -/
def Invocation.read (environment : List (String × String)) (args : List String) :
    Except Halt Invocation := do
  let (before, rest) ← readFlags commonFlags true [] args
  match rest with
  | [] => throw .usage
  | "help" :: topic => throw (if isHelpTopic topic then .help else .usage)
  | name :: rest =>
    let flags ← require (commandFlags? name)
    let (after, rest) ← readFlags (commonFlags ++ flags) false [] rest
    if !rest.isEmpty then throw .usage
    checkVariables commonFlags environment after
    let command ← readCommand name after
    checkVariables commonFlags environment before
    let value? := valueOf? commonFlags environment before after
    return { fixture := value? "fixture"
             config := value? "config"
             workerThreads := (value? "worker-threads").bind Numeral.natural?
             maxEventsPerScan := (value? "max-events-per-scan").bind Numeral.natural?
             now := (value? "now").bind Instant.ofTimestamp?
             command }

end Cohort.CommandLine
