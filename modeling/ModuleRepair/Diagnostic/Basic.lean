import ModuleRepair.Path

/-!
# Diagnostics

A diagnostic is a problem that the compiler reports; a fix is what a repair makes of one. Five
codes have fixes: four kinds in all.
-/
namespace ModuleRepair

/-- A reported problem. -/
structure Diagnostic where
  code : Int
  message : String
  path : Option String := none
  line : Int := 0
  column : Int := 0
  category : String := "error"
  deriving DecidableEq, Repr

abbrev DiagnosticsByFile := List (String × List Diagnostic)

namespace DiagnosticsByFile

def of (ds : DiagnosticsByFile) (path : String) : List Diagnostic :=
  (ds.lookup path).getD []

def add (ds : DiagnosticsByFile) (path : String) (more : List Diagnostic) : DiagnosticsByFile :=
  if (ds.lookup path).isSome then
    ds.map fun entry => if entry.1 = path then (path, entry.2 ++ more) else entry
  else ds ++ [(path, more)]

/-- Diagnostics under the normal forms of their paths; relative ones are taken from a directory. -/
def normalize (ds : DiagnosticsByFile) (directory : String) : DiagnosticsByFile :=
  ds.foldl (fun all (path, more) => add all (Path.absolute (Path.join directory path)) more) []

end DiagnosticsByFile

/-- What a repair can do about a diagnostic. -/
inductive Fix where
  /-- A default import of what is only exported by name. -/
  | importByName (name specifier : String)
  /-- An import by name of what is only the default export. -/
  | importDefault (name specifier : String)
  /-- A name that is neither declared nor imported. -/
  | addImport (name : String)
  /-- A specifier that leads nowhere. -/
  | correctPath (specifier : String)
  deriving DecidableEq, Repr

/-- A fix that was applied. -/
structure FixAction where
  code : Int
  path : String
  description : String
  deriving DecidableEq, Repr

end ModuleRepair
