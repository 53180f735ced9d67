import ModuleRepair.CommandLine.Arguments
import ModuleRepair.Run.Perform
import ModuleRepair.Settings.Layers

/-!
# The program

The program reads its arguments, loads the settings, performs one job and prints a summary. It ends
with zero when the run is complete, and with one when it cannot start or ends early. A configuration
that is no document at all, or that holds something else where a section must be, ends it with an
error.
-/
namespace ModuleRepair.CommandLine

structure Start where
  arguments : List String
  environment : List (String × String) := []
  /-- The text of the standard input. -/
  input : String := ""

/-- How the program ends. -/
inductive Exit where
  | complete
  | failed
  | refused (refusal : Refusal)
  | crashed (error : SettingsError)

/-- What the program leaves. -/
structure Finished where
  disk : Disk
  exit : Exit
  /-- The text of the standard output. -/
  output : String := ""
  notices : List Notice := []
  calls : List Call := []

/-- The settings that arguments choose. -/
def Options.overrides (o : Options) : List (String × Value) := [
  ("index_mode", (o.mode.map fun mode => Value.text mode.name).getD .null),
  ("timeout_seconds", (o.timeout.map fun x => Value.number (.real x)).getD .null),
  ("skip_preprocessing", if o.skipPreprocessing then .bool true else .null),
  ("named_export_allow_list", (o.allowList.map fun l => Value.list (l.map .text)).getD .null)]

/-- Whether the program reports an error of the settings itself. -/
def isReported : SettingsError → Bool
  | .notYaml _ | .notASection => false
  | _ => true

/-- The text of the build log; without one it is empty. -/
def buildLogText (d : Disk) (input : String) : Option String → Except DiskFault String
  | none => .ok ""
  | some path => if path = standardInput then .ok input else Script.readLenient d path

/-- Where the diagnostics of a run come from: a saved report, or else the compiler. -/
def sourceOf (o : Options) (s : Settings) : Source :=
  match given o.diagnosticsFile with
  | some path => .saved path
  | none =>
    if s.compiler.enabled then
      .compiler (.ofCommand s.compiler.command s.compiler.configuration (.real s.timeoutSeconds))
    else .nowhere

/-- A line of the summary: a label in a column of its own, and a number. -/
def countLine (label : String) (n : Nat) : String :=
  let padding := String.ofList (List.replicate (24 - label.length) ' ')
  label ++ padding ++ toString n ++ "\n"

def actionLine (a : FixAction) : String :=
  "  - TS" ++ toString a.code ++ " " ++ a.path ++ ": " ++ a.description ++ "\n"

/-- The summary of a run. -/
def summary (stats : Stats) (actions : List FixAction) : String :=
  "\nAuto-fix summary:\n"
    ++ countLine "  Files processed:" stats.filesProcessed
    ++ countLine "  Imports fixed:" stats.importsFixed
    ++ countLine "  Exports refactored:" stats.exportsRefactored
    ++ countLine "  Diagnostics resolved:" stats.diagnosticsResolved
    ++ String.join (actions.map actionLine)

/-- The notice of a run that ended early. -/
def endedNotice : RunError → Notice
  | .notLoaded e => .projectFailed e.message
  | e@(.timedOut ..) => .aborted e.message

/-- The program behind a run. -/
def finish (ended : Ended) : Finished :=
  let s := ended.session
  match ended.error with
  | some e =>
    { disk := ended.disk, exit := .failed, calls := s.calls
      notices := s.work.notices ++ [endedNotice e] }
  | none =>
    { disk := ended.disk, exit := .complete, calls := s.calls, notices := s.work.notices
      output := summary s.work.stats s.actions }

def notStarted (d : Disk) (reason : Option String) : Finished :=
  { disk := d, exit := .failed, notices := [.startFailed reason] }

/-- Performs the job that arguments and settings ask for. -/
def perform (a : Arguments) (settings : Settings) (buildLog : String) (tools : Tools)
    (clock : Nat → Float) (d : Disk) : Finished :=
  let source := sourceOf a.options settings
  let job : Job := { directory := a.project, files := a.files, buildLog, settings, source }
  finish (job.run tools clock d)

def run (start : Start) (tools : Tools) (clock : Nat → Float) (d : Disk) : Finished :=
  match Arguments.ofTexts start.arguments with
  | .error refusal => { disk := d, exit := .refused refusal }
  | .ok a =>
    match Settings.load d a.options.config start.environment a.options.overrides with
    | .error e => if isReported e then notStarted d e.message else { disk := d, exit := .crashed e }
    | .ok settings =>
      match buildLogText d start.input a.options.buildLog with
      | .error _ => notStarted d none
      | .ok buildLog => perform a settings buildLog tools clock d

end ModuleRepair.CommandLine
