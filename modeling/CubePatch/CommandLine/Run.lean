import CubePatch.CommandLine.Help
import CubePatch.CommandLine.Options
import CubePatch.Text.Escape

/-!
# Runs

A run reads its arguments, does the build they ask for, and says how that went. What it prints is a
value, so a run touches nothing but the files that its build touches. Arguments that are no good end
a run before any file is read.
-/
namespace CubePatch

/-- What a run leaves to its caller. -/
structure RunResult where
  exitCode : Nat
  output : String
  errors : String
  deriving DecidableEq, Repr

/-- What a run does not learn from its arguments and files. -/
structure Surroundings where
  /-- The directory of the program. -/
  programDirectory : Option Path
  /-- Used for a key if no seed is given. -/
  entropy : UInt64
  deriving DecidableEq, Repr

/-- The line in which an event is shown. -/
def Event.line (event : Event) : String :=
  padLeft 5 event.level.name ++ " " ++ escapeControls event.message

/-- The lines of the events that are urgent enough. -/
def logText (shownRank : Nat) (events : List Event) : String :=
  textOfLines ((events.filter fun event => event.level.rank ≤ shownRank).map Event.line)

namespace RunResult

/-- A run whose arguments are no good. -/
def ofArgumentError (fault : ArgumentError) : RunResult where
  exitCode := 2
  output := ""
  errors := textOfLines ["error: " ++ fault.message, "", helpText]

/-- A run that did a build. -/
def ofBuild (shownRank : Nat) (built : Logged BuildError (Path × BuildReport)) : RunResult :=
  match built.outcome with
  | .ok (path, report) =>
    { exitCode := 0
      output := logText shownRank (built.events ++ report.events ++ [.patched path])
      errors := "" }
  | .error fault =>
    { exitCode := fault.exitCode
      output := logText shownRank built.events
      errors := textOfLines [fault.line] }

end RunResult

/-- The name of the directory of handler and loader binaries. -/
def binariesName : String := "bin"

/-- The directory of handler and loader binaries: beside the program, or else in the working
directory. -/
def binariesDirectory [Monad m] (files : FileSystem m) (surroundings : Surroundings) : m Path := do
  match surroundings.programDirectory with
  | none => return ⟨binariesName⟩
  | some directory =>
    let path := directory.join binariesName
    return if ← files.isDirectory path then path else ⟨binariesName⟩

/-- Runs the program. -/
def run [Monad m] (files : FileSystem m) (surroundings : Surroundings) (arguments : List String) :
    m RunResult := do
  match RunOptions.ofArguments arguments with
  | .error fault => return .ofArgumentError fault
  | .ok options =>
    if options.help then return ⟨0, helpText, ""⟩
    else
      let binaries ← binariesDirectory files surroundings
      match options.build binaries surroundings.entropy with
      | .error fault => return .ofArgumentError fault
      | .ok asked => return .ofBuild options.shownRank (← build files asked)

end CubePatch
