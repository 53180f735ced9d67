import ModuleRepair.SourceFile.Basic

/-!
# What a module offers

A module offers its default export under one name, and every named export under its own.
-/
namespace ModuleRepair

open ModuleRepair.Text ModuleRepair.Script

/-- A name that a module offers. -/
structure ExportEntry where
  name : String
  /-- The specifier to import it from. -/
  specifier : String
  isDefault : Bool
  path : Option String := none
  deriving DecidableEq, Repr

namespace SourceFile

/-- A name for the default export of a module that gives it none: that of the file, or of the
directory when the file is its index. -/
def impliedName (f : SourceFile) : String :=
  if f.stem = "index" then
    let segments := (split '/' (dropEnd (· == '/') (Path.forwardSlashes f.path).toList)).dropLast
    capitalize (String.ofList (segments.getLast?.getD []))
  else capitalize f.stem

/-- The name under which a module offers its default export. -/
def defaultNameIn (f : SourceFile) (o : Outline) : Option String :=
  o.defaultExport.map fun d =>
    match (given d.localName).filter (· ≠ "default") with
    | some name => name
    | none => f.impliedName

/-- The name under which a module offers its default export. -/
def defaultName (f : SourceFile) : Except LanguageError (Option String) := do
  return f.defaultNameIn (← f.outline)

/-- What a module offers: its default export first, then its named ones. A module without a
specifier offers nothing. -/
def exports (f : SourceFile) : Except LanguageError (List ExportEntry) :=
  match f.specifier? with
  | none => return []
  | some specifier => do
    let o ← f.outline
    let default := (given (f.defaultNameIn o)).map fun name => ⟨name, specifier, true, f.path⟩
    let named := (o.namedExports.filter (· ≠ "default")).map fun name =>
      ⟨name, specifier, false, f.path⟩
    return default.toList ++ named

end SourceFile

end ModuleRepair
