import ModuleRepair.Project.Storage

/-!
# The state of a repair

A repair works on a project, counts what it has done and collects notices. Where a step fails,
everything before the failure stays done (`Attempt.orReport`).
-/
namespace ModuleRepair

open ModuleRepair.Script

/-- What a repair has done so far. -/
structure Stats where
  filesProcessed : Nat := 0
  importsFixed : Nat := 0
  exportsRefactored : Nat := 0
  diagnosticsResolved : Nat := 0
  deriving DecidableEq, Repr

structure Work where
  project : Project
  stats : Stats := {}
  notices : List Notice := []

abbrev Step := StateM Work

/-- A step that can fail; a failure undoes nothing. -/
abbrev Attempt := ExceptT LanguageError Step

namespace Work

/-- Adds a notice. -/
def report (notice : Notice) : Step Unit :=
  modify fun w => { w with notices := w.notices ++ [notice] }

/-- Changes a module. -/
def putFile (f : SourceFile) : Step Unit :=
  modify fun w => { w with project := w.project.put f }

def count (change : Stats → Stats) : Step Unit :=
  modify fun w => { w with stats := change w.stats }

end Work

namespace Attempt

/-- A computation that does not touch the work. -/
def of {α : Type} (result : Except LanguageError α) : Attempt α :=
  fun w => (result, w)

/-- Reports a failure and goes on with a default. -/
def orReport {α : Type} (attempt : Attempt α) (otherwise : α) (notice : LanguageError → Notice) :
    Step α := do
  match ← attempt.run with
  | .ok value => return value
  | .error e =>
    Work.report (notice e)
    return otherwise

end Attempt

/-- The first elements of a list, as many as a limit allows; a negative limit leaves out so many at
the end, and no limit leaves out none. -/
def upTo {α : Type} (limit : Option Int) (xs : List α) : List α :=
  match limit with
  | none => xs
  | some n => if n < 0 then xs.take (xs.length - n.natAbs) else xs.take n.toNat

end ModuleRepair
