import ModuleRepair.Diagnostic.Report
import ModuleRepair.Disk
import ModuleRepair.Notice

/-!
# The compiler

The compiler is a tool that prints a report. Whether it can be found is asked once and remembered. A
collection that comes to nothing is empty and never an error.
-/
namespace ModuleRepair

open ModuleRepair.Decimal

/-- A call of a tool. -/
structure Call where
  command : List String
  directory : String
  /-- The seconds that the call may take. -/
  limit : Number

/-- What comes of a call. -/
inductive CallOutcome where
  | printed (report : String)
  | timedOut
  | notStarted

/-- The tools that can be called. -/
structure Tools where
  has : String → Bool
  run : Call → CallOutcome

/-- No tools at all. -/
def Tools.none : Tools := ⟨fun _ => false, fun _ => .notStarted⟩

structure Collected where
  diagnostics : DiagnosticsByFile := []
  calls : List Call := []
  notices : List Notice := []

/-- How the compiler is called. -/
structure Compiler where
  command : List String
  /-- The compiler's configuration file, below the directory of the project. -/
  configuration : String
  /-- The seconds that a call may take at most. -/
  limit : Number

namespace Compiler

/-- The command where none is chosen. -/
def standardCommand : List String := ["npx", "--no-install", "tsc"]

/-- The configuration file where none is chosen. -/
def standardConfiguration : String := "tsconfig.json"

/-- The limit where none is chosen: two minutes. -/
def standardLimit : Number := .whole 120

/-- The compiler under a command; an empty command stands for the standard one. -/
def ofCommand (command : List String) (configuration : String) (limit : Number) : Compiler :=
  ⟨if command.isEmpty then standardCommand else command, configuration, limit⟩

/-- The program that is started. -/
def program (c : Compiler) : String :=
  c.command.headD ""

/-- The call that checks a project, which may take no longer than the time that is left. -/
def call (c : Compiler) (directory : String) (left : Option Number) : Call where
  command := c.command ++ ["--noEmit", "--pretty", "false", "-p",
    Path.join directory c.configuration]
  directory
  limit := match left with
    | some left => left.min c.limit
    | none => c.limit

/-- Makes a call, and reads the report. -/
def perform (c : Compiler) (tools : Tools) (call : Call) : Collected :=
  match tools.run call with
  | .printed report => { diagnostics := Report.byFile report call.directory, calls := [call] }
  | .timedOut => { calls := [call], notices := [.toolTimedOut c.program call.limit] }
  | .notStarted => { calls := [call] }

/-- Collects the diagnostics of a project. The third argument tells whether the compiler was found,
if that has been asked before; it is answered together with the result. -/
def collect (c : Compiler) (tools : Tools) (known : Option Bool) (d : Disk) (directory : String)
    (left : Option Number) : Collected × Bool :=
  let found := known.getD (tools.has c.program)
  if !found then ({ notices := if known.isNone then [.toolMissing c.program] else [] }, found)
  else if !d.has (Path.join directory c.configuration) then
    ({ notices := [.configurationMissing c.configuration directory] }, found)
  else (c.perform tools (c.call directory left), found)

end Compiler

end ModuleRepair
