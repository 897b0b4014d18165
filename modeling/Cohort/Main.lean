import Cohort.CommandLine.Run
import Std.Time.DateTime.Timestamp
set_option autoImplicit false

/-!
# The program

Everything that is decided is decided by `Cohort.CommandLine`; this module reads files, the
environment, the clock and random bytes, and prints.
-/

namespace Cohort

open CommandLine

/-- The file that holds the environment of the program, on systems that have one. -/
def environmentFile : String := "/proc/self/environ"

/-- The variables that the program looks at where there is no such file. -/
def settingVariables : List String :=
  ["AUDIENCE_FIXTURE", "AUDIENCE__NODE_ID", "AUDIENCE__EVALUATION__MAX_EVENTS_PER_SCAN",
   "AUDIENCE__EVALUATION__SCAN_TIME_BUDGET_MS", "AUDIENCE__EVALUATION__WORKER_THREADS",
   "AUDIENCE__REPORTING__DEFAULT_PAGE_SIZE", "AUDIENCE__REPORTING__MAX_PAGE_SIZE"]

/-- The variables that are set. -/
def readEnvironment : IO (List (String × String)) := do
  try
    return readVariables (← IO.FS.readFile environmentFile)
  catch _ =>
    settingVariables.filterMapM fun name => do
      return (← IO.getEnv name).map (name, ·)

/-- The files that a run may read. -/
def filesOf (i : Invocation) : List String :=
  let report := match i.command with
    | .report spec _ _ => [spec]
    | _ => []
  i.fixture.toList ++ (i.config.map settingsFiles).getD [] ++ report

/-- The texts of the files that can be read. -/
def readFiles (paths : List String) : IO (List (String × String)) :=
  paths.filterMapM fun (path : String) => do
    try
      return some (path, ← IO.FS.readFile path)
    catch _ => return none

/-- The present. -/
def readClock : IO Instant := do
  let t ← Std.Time.Timestamp.now
  let nanos := t.toNanosecondsSinceUnixEpoch.val
  return (Instant.ofParts? (nanos / 1000000000) (nanos % 1000000000).toNat).getD Instant.min

/-- Random bits. -/
def randomBits (bytes : USize) : IO Nat := do
  let held ← IO.getRandomBytes bytes
  return held.toList.foldl (fun n b => 256 * n + b.toNat) 0

/-- Identifiers that differ from one another: random bits after which the places of segments are
counted. -/
def readStamp (now : Instant) : IO (Nat → Stamp) := do
  let start ← randomBits 16
  return fun place => ⟨Uuid.ofRandom (start + place), now⟩

/-- Prints why nothing is done, and gives the exit code. -/
def printHalt : Halt → IO UInt32
  | .usage => do
    IO.eprintln usage
    return 2
  | .help => do
    IO.println usage
    return 0
  | .version => do
    IO.println version
    return 0

/-- Runs an invocation, prints the answer and gives the exit code. -/
def printRun (environment : List (String × String)) (i : Invocation) : IO UInt32 := do
  let files ← readFiles (filesOf i)
  let now ← readClock
  let world : World := ⟨(files.lookup ·), environment, now, ← readStamp now⟩
  let started ← IO.monoMsNow
  match i.run world with
  | .ok answer =>
    let stopped ← IO.monoMsNow
    IO.println (answer.write (stopped - started))
    return 0
  | .error failure =>
    IO.eprintln ("Error: " ++ failure.message)
    return 1

end Cohort

/-- The program. -/
def main (args : List String) : IO UInt32 := do
  let environment ← Cohort.readEnvironment
  match Cohort.CommandLine.Invocation.read environment args with
  | .ok invocation => Cohort.printRun environment invocation
  | .error halt => Cohort.printHalt halt
