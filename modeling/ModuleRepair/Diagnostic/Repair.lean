import ModuleRepair.Diagnostic.Classify
import ModuleRepair.Export.Surface
import ModuleRepair.SourceFile.Edit

/-!
# Repairing imports by diagnostics

Every diagnostic that has a fix changes the imports of its file at most once. Nothing but imports is
changed, and no other file.
-/
namespace ModuleRepair

open ModuleRepair.Script

/-- A well-known name and where it is always imported from. -/
structure SpecialImport where
  specifier : String
  isDefault : Bool := false
  deriving DecidableEq, Repr

/-- The well-known names where none are chosen. -/
def standardSpecial : List (String × SpecialImport) := [("cn", ⟨"@/lib/utils", false⟩)]

/-- What the repair of a file can draw on. -/
structure Repairs where
  surface : Surface := {}
  special : List (String × SpecialImport) := []
  /-- The number of diagnostics of one file that are looked at. -/
  limit : Option Int := none

/-- A changed file, and what was done in words. -/
abbrev Repaired := SourceFile × String

namespace Repairs

/-- The first import of a condition that has this very specifier, or else one that leads to the
same path. -/
def findImport? (r : AliasRoot) (o : Outline) (specifier : String) (p : Import → Bool) :
    Option Import :=
  (o.imports.find? fun d => d.specifier = specifier && p d).or
    (o.imports.find? fun d => r.matchesPath d.specifier specifier && p d)

/-- The declarations that bind a default import by name instead. A namespace keeps a declaration of
its own. -/
def bindByName (d : Import) (name : String) : List Import :=
  if (given d.namespaceName).isSome then
    [{ d with defaultName := none }, Import.defaultToNamed { d with namespaceName := none } name]
  else [d.defaultToNamed name]

/-- Binds a default import by name. -/
def importByName (p : Project) (f : SourceFile) (name specifier : String) :
    Except LanguageError (Option Repaired) := do
  let o ← f.outline
  return (findImport? p.root o specifier fun d => d.defaultName.isSome).map fun d =>
    (f.replaceImport d (bindByName d name),
      "default import of '" ++ name ++ "' from '" ++ d.specifier ++ "' → named import")

/-- Whether a module offers nothing by default that could be meant by a name. -/
def offersByNameOnly (target : SourceFile) (name : String) : Except LanguageError Bool := do
  let o ← target.outline
  return o.defaultExport.isNone || o.namedExports.contains name

/-- Makes a named binding the default one, unless the module it comes from shows that this would be
wrong. -/
def importDefault (p : Project) (f : SourceFile) (name specifier : String) :
    Except LanguageError (Option Repaired) := do
  let o ← f.outline
  match findImport? p.root o specifier fun d => d.named.any (·.localName = name) with
  | none => return none
  | some d =>
    let outdated ← match p.resolve? f.path d.specifier with
      | some target => offersByNameOnly target name
      | none => pure false
    if outdated then return none
    return (d.namedToDefault? name).map fun new =>
      (f.replaceImport d [new],
        "named import of '" ++ name ++ "' from '" ++ d.specifier ++ "' → default import")

def addImportOf (f : SourceFile) (name specifier : String) (isDefault : Bool) :
    Except LanguageError (Option Repaired) := do
  let d := if isDefault then Import.fresh specifier (some name) []
    else Import.fresh specifier none [name]
  let kind := if isDefault then "default" else "named"
  return some (← f.addImport d,
    "added " ++ kind ++ " import of '" ++ name ++ "' from '" ++ specifier ++ "'")

/-- Imports a name that is not imported yet: a well-known one, or one that another module offers. -/
def addImport (r : Repairs) (f : SourceFile) (name : String) :
    Except LanguageError (Option Repaired) := do
  if (← f.outline).importedNames.contains name then return none
  match r.special.lookup name with
  | some s => addImportOf f name s.specifier s.isDefault
  | none =>
    match r.surface.get? name with
    | none => return none
    | some e =>
      if f.specifier? = some e.specifier then return none
      else addImportOf f name e.specifier e.isDefault

/-- Gives the imports of a specifier another one, and counts them. The third argument bounds their
number. -/
def replaceSpecifier (old new : String) : Nat → SourceFile → Except LanguageError (SourceFile × Nat)
  | 0, f => return (f, 0)
  | n + 1, f => do
    match (← f.outline).imports.find? (·.specifier = old) with
    | none => return (f, 0)
    | some d =>
      let (f, count) ← replaceSpecifier old new n (f.replaceImport d [{ d with specifier := new }])
      return (f, count + 1)

/-- Takes the steps to parent directories out of a specifier. -/
def correctPath (p : Project) (f : SourceFile) (specifier : String) :
    Except LanguageError (Option Repaired) := do
  match p.root.collapse? specifier with
  | none => return none
  | some collapsed =>
    let (f, count) ← replaceSpecifier specifier collapsed (← f.outline).imports.length f
    return if count = 0 then none
      else some (f, "module path '" ++ specifier ++ "' → '" ++ collapsed ++ "'")

/-- Applies one fix to a file; nothing when it does not apply. -/
def apply (r : Repairs) (p : Project) (f : SourceFile) :
    Fix → Except LanguageError (Option Repaired)
  | .importByName name specifier => importByName p f name specifier
  | .importDefault name specifier => importDefault p f name specifier
  | .addImport name => r.addImport f name
  | .correctPath specifier => correctPath p f specifier

/-- Applies the fix of one diagnostic to the file under a path. -/
def fixOne (r : Repairs) (path : String) (d : Diagnostic) : Attempt (Option FixAction) := do
  let p := (← get).project
  match Fix.classify? d.code d.message, p.find? path with
  | some fix, some f =>
    match ← Attempt.of (r.apply p f fix) with
    | none => return none
    | some (f, description) =>
      Work.putFile f
      Work.count fun s => { s with
        diagnosticsResolved := s.diagnosticsResolved + 1
        importsFixed := s.importsFixed + 1 }
      return some ⟨d.code, path, description⟩
  | _, _ => return none

/-- Applies the fixes of a file's diagnostics, and answers what was done. -/
def fixFile (r : Repairs) (path : String) (diagnostics : List Diagnostic) :
    Step (List FixAction) :=
  (upTo r.limit diagnostics).filterMapM fun d =>
    (r.fixOne path d).orReport none (.diagnosticFailed d.code)

/-- Applies the fixes of several files, and answers what was done to each of those that changed. -/
def fixFiles (r : Repairs) (paths : List String) (diagnostics : DiagnosticsByFile) :
    Step (List (String × List FixAction)) := do
  let done ← paths.mapM fun path => return (path, ← r.fixFile path (diagnostics.of path))
  return done.filter (!·.2.isEmpty)

end Repairs

end ModuleRepair
