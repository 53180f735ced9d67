import ModuleRepair.Diagnostic.Compiler
import ModuleRepair.Diagnostic.Repair
import ModuleRepair.Preprocess.Text

/-!
# Settings

Everything about a run that can be chosen, with what holds where nothing is chosen.
-/
namespace ModuleRepair

/-- How much a run may look at and do at once. -/
structure Limits where
  /-- Whether the other limits hold. -/
  constrained : Bool := true
  scannedModules : Int := 20
  exportEntries : Int := 100
  diagnosticsPerFile : Int := 10
  filesPerBatch : Int := 5
  concurrentPreprocess : Int := 4
  deriving DecidableEq, Repr

/-- How the compiler is run. -/
structure CompilerSettings where
  enabled : Bool := true
  command : List String := Compiler.standardCommand
  /-- The configuration of the compiler, below the directory of the project. -/
  configuration : String := Compiler.standardConfiguration
  deriving DecidableEq, Repr

/-- The settings of a run. -/
structure Settings where
  sourceRoot : String := "src"
  mark : String := standardMark
  indexMode : IndexMode := .full
  timeoutSeconds : Float := 60.0
  skipPreprocessing : Bool := false
  clientDirective : String := Preprocess.standardDirective
  clientModules : List String := Preprocess.standardModules
  /-- The modules whose default export is made a named one. -/
  allowList : List String := []
  special : List (String × SpecialImport) := standardSpecial
  limits : Limits := {}
  compiler : CompilerSettings := {}
  deriving Repr

namespace Settings

/-- A limit, if limits hold. -/
def cap (s : Settings) (n : Int) : Option Int :=
  if s.limits.constrained then some n else none

end Settings

end ModuleRepair
