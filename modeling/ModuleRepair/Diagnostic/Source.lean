import ModuleRepair.Diagnostic.Compiler
import ModuleRepair.Script.File

/-!
# Sources of diagnostics

Diagnostics come from the compiler, from a report that was saved, or are simply given. A source that
fails gives none.
-/
namespace ModuleRepair

open ModuleRepair.Decimal

/-- Where diagnostics come from. -/
inductive Source where
  | nowhere
  | given (diagnostics : DiagnosticsByFile)
  | saved (path : String)
  | compiler (c : Compiler)
  /-- A source that always fails. -/
  | broken (reason : String)

namespace Source

def isThere : Source → Bool
  | nowhere => false
  | _ => true

/-- Collects the diagnostics of a project in the time that is left. -/
def collect (s : Source) (tools : Tools) (d : Disk) (directory : String) (left : Option Number) :
    Collected :=
  match s with
  | nowhere => {}
  | given diagnostics => { diagnostics := diagnostics.normalize directory }
  | saved path =>
    match Script.readLenient d path with
    | .ok report => { diagnostics := Report.byFile report directory }
    | .error _ => { notices := [.diagnosticsUnreadable path] }
  | compiler c => (c.collect tools none d directory left).1
  | broken reason => { notices := [.collectFailed reason] }

end Source

end ModuleRepair
