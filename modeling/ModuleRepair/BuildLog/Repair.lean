import ModuleRepair.BuildLog.Basic
import ModuleRepair.Repair.Work
import ModuleRepair.SourceFile.Edit

/-!
# Repairing imports by a build log

When a module that only has a default export is reported not to export a name, every file that
imports the name from it binds the default export instead.
-/
namespace ModuleRepair

open ModuleRepair.Script

namespace Project

/-- Whether an import of a file binds the reported name and may be changed to a default import: its
specifier is the reported one, or leads to the same module. -/
def importsMismatch (p : Project) (m : Mismatch) (consumer defining : String) (d : Import) : Bool :=
  (given d.defaultName).isNone && d.named.any (·.localName = m.name) &&
    (d.specifier = m.specifier || (p.resolve? consumer d.specifier).any (·.path = defining))

/-- Changes the imports of the reported name in a file, and counts them. The fourth argument bounds
their number. -/
def rewriteMismatch (p : Project) (m : Mismatch) (defining : String) :
    Nat → SourceFile → Except LanguageError (SourceFile × Nat)
  | 0, f => return (f, 0)
  | n + 1, f => do
    match (← f.outline).imports.find? (p.importsMismatch m f.path defining) with
    | none => return (f, 0)
    | some d =>
      match d.namedToDefault? m.name with
      | none => return (f, 0)
      | some new =>
        let (f, count) ← rewriteMismatch p m defining n (f.replaceImport d [new])
        return (f, count + 1)

/-- Changes all imports of the reported name in a file, and counts them. -/
def rewriteConsumer (p : Project) (m : Mismatch) (defining : String) (f : SourceFile) :
    Except LanguageError (SourceFile × Nat) := do
  p.rewriteMismatch m defining (← f.outline).imports.length f

end Project

namespace BuildLog

/-- Changes the imports of one file; answers its path when there were any. -/
def consumer (m : Mismatch) (defining : String) (f : SourceFile) : Attempt (Option String) := do
  let (f, count) ← Attempt.of ((← get).project.rewriteConsumer m defining f)
  if count = 0 then return none
  Work.putFile f
  Work.count fun s => { s with importsFixed := s.importsFixed + count }
  return some f.path

/-- Repairs one mismatch, and answers the paths of all changed files. -/
def repairOne (m : Mismatch) : Attempt (List String) := do
  match (← get).project.locate? m.specifier with
  | none => return []
  | some defining =>
    let o ← Attempt.of defining.outline
    if o.defaultExport.isNone || o.namedExports.contains m.name then return []
    let consumers := (← get).project.files.filter (·.path ≠ defining.path)
    consumers.filterMapM (consumer m defining.path)

/-- Repairs the mismatches of a log, and answers the paths of all changed files. -/
def repair (log : String) : Step (List String) := do
  let touched ← (mismatches log).mapM fun m =>
    (repairOne m).orReport [] (.mismatchFailed m.name m.specifier)
  return sortedPaths touched.flatten

end BuildLog

end ModuleRepair
