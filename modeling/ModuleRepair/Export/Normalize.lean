import ModuleRepair.Repair.Work
import ModuleRepair.SourceFile.Edit

/-!
# Turning default exports into named ones

A module whose default export is a name declared in it gets that declaration exported under its own
name instead. Every import of the old form is changed first, as long as its local name is the same.
-/
namespace ModuleRepair

open ModuleRepair.Script

namespace Project

/-- Whether an import of a file binds a module's default export under the given name. -/
def importsDefault (p : Project) (importer target name : String) (d : Import) : Bool :=
  d.defaultName = some name && (p.resolve? importer d.specifier).any (·.path = target)

/-- Changes the default imports of one module in a file to named ones, and counts them. The first
argument bounds their number. -/
def rewriteDefaults (p : Project) (target name : String) :
    Nat → SourceFile → Except LanguageError (SourceFile × Nat)
  | 0, f => return (f, 0)
  | n + 1, f => do
    match (← f.outline).imports.find? (p.importsDefault f.path target name) with
    | none => return (f, 0)
    | some d =>
      let (f, count) ← rewriteDefaults p target name n
        (f.replaceImport d [d.defaultToNamed name])
      return (f, count + 1)

/-- Changes all default imports of one module in a file to named ones, and counts them. -/
def rewriteImporter (p : Project) (target name : String) (f : SourceFile) :
    Except LanguageError (SourceFile × Nat) := do
  p.rewriteDefaults target name (← f.outline).imports.length f

end Project

namespace Normalize

/-- Changes the imports of one file; answers its path when there were any. -/
def importer (target name : String) (f : SourceFile) : Attempt (Option String) := do
  let (f, count) ← Attempt.of ((← get).project.rewriteImporter target name f)
  if count = 0 then return none
  Work.putFile f
  Work.count fun s => { s with importsFixed := s.importsFixed + count }
  return some f.path

/-- The name of a default export that is a name declared in the module. -/
def convertibleName? (o : Outline) : Option String :=
  match o.defaultExport with
  | some ⟨.identifier, some name, _⟩ => if (o.declaration? name).isSome then some name else none
  | _ => none

/-- The file with a declaration exported and without its default export. -/
def exportByName (f : SourceFile) (name : String) : Except LanguageError SourceFile := do
  let marked := (← f.markExported name).getD f
  return (← marked.removeDefaultExport).getD marked

/-- Converts one module, and answers the paths of all changed ones. -/
def module (f : SourceFile) : Attempt (List String) := do
  match convertibleName? (← Attempt.of f.outline) with
  | none => return []
  | some name =>
    let importers := (← get).project.files.filter (·.path ≠ f.path)
    let touched ← importers.filterMapM (importer f.path name)
    Work.putFile (← Attempt.of (exportByName f name))
    Work.count fun s => { s with exportsRefactored := s.exportsRefactored + 1 }
    return touched ++ [f.path]

/-- Converts the module under one path. -/
def path (path : String) : Step (List String) := do
  match (← get).project.get? path with
  | none =>
    Work.report (.allowedModuleMissing path)
    return []
  | some f => (module f).orReport [] (.normalizeFailed f.baseName)

/-- Converts the modules under the given paths, and answers the paths of all changed ones. -/
def paths (allowed : List String) : Step (List String) := do
  return sortedPaths (← allowed.mapM path).flatten

end Normalize

end ModuleRepair
