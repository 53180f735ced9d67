import ModuleRepair.CommandLine.Program

/-!
# The command line

The outer layer reads arguments, variables and files, calls the program, and writes files and
messages. It sees the files that a listing names, one path a line, and those named on the command
line; the listing is the file that the variable `TSMEND_LISTING` names. It starts no tools, so the
diagnostics of the compiler come from a saved report.
-/
namespace ModuleRepair

open CommandLine

/-- The file at a path, if it can be read. -/
def readBytes (path : String) : IO (Option ByteArray) := do
  match ← (IO.FS.readBinFile path).toBaseIO with
  | .ok bytes => return some bytes
  | .error _ => return none

/-- The text of a file, line by line; no lines when it cannot be read. -/
def readListing (path : String) : IO (List String) := do
  match ← readBytes path with
  | some bytes => return (Text.decodeLossy bytes).splitOn "\n"
  | none => return []

/-- A disk with the files that can be read at the given paths. -/
def readDisk (paths : List String) : IO Disk :=
  paths.foldlM (fun d path => do
    match ← readBytes path with
    | some bytes => return d.put path (.file bytes)
    | none => return d) {}

/-- The variables of the environment that the settings know. -/
def readEnvironment : IO (List (String × String)) :=
  environmentVariables.filterMapM fun v => do
    return (← IO.getEnv v.name).map (v.name, ·)

/-- Reads the standard input when a build log comes from there. -/
def readInput (arguments : List String) : IO String := do
  match Arguments.ofTexts arguments with
  | .ok a =>
    if a.options.buildLog = some standardInput then (← IO.getStdin).readToEnd else return ""
  | .error _ => return ""

/-- The paths that a command line names. -/
def namedPaths (arguments : List String) : List String :=
  match Arguments.ofTexts arguments with
  | .ok a =>
    let o := a.options
    a.files.map (Path.join a.project) ++
      [o.config, o.diagnosticsFile, o.buildLog].filterMap id
  | .error _ => []

/-- Writes the files that the program has changed, each under the path by which it was read. -/
def writeChanges (paths : List String) (before after : Disk) : IO Unit :=
  for path in paths.eraseDups do
    match after.node? (Path.absolute path) with
    | some (.file bytes) =>
      if before.node? (Path.absolute path) ≠ some (.file bytes) then
        IO.FS.writeBinFile path bytes
    | _ => pure ()

/-- The options in short, for whoever asks for help. -/
def help : String :=
  "usage: tsmend [options] project [files ...]\n\noptions:\n" ++
    String.join (Opt.all.map fun o => "  " ++ String.intercalate ", " o.names ++ "\n")

/-- Prints how the program ends, and answers its status. -/
def conclude (f : Finished) : IO UInt32 := do
  for n in f.notices do IO.println (n.severity.name ++ " " ++ n.message)
  IO.print f.output
  match f.exit with
  | .complete => return 0
  | .failed => return 1
  | .refused .help =>
    IO.print help
    return 0
  | .refused (.misused e) =>
    IO.eprintln ("tsmend: error: " ++ e.message)
    return 2
  | .crashed e =>
    IO.eprintln (e.message.getD "the configuration cannot be read")
    return 1

/-- Runs the program on what the outer layer sees. -/
def runProgram (arguments : List String) : IO UInt32 := do
  let listed ← match ← IO.getEnv "TSMEND_LISTING" with
    | some path => readListing path
    | none => pure []
  let paths := (listed ++ namedPaths arguments).filter (· ≠ "")
  let disk ← readDisk paths
  let start : Start :=
    { arguments, environment := ← readEnvironment, input := ← readInput arguments }
  let finished := run start .none (fun _ => 0.0) disk
  writeChanges paths disk finished.disk
  conclude finished

end ModuleRepair

/-- The program. -/
def main (arguments : List String) : IO UInt32 :=
  ModuleRepair.runProgram arguments
