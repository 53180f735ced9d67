import ModuleRepair.Script.Module
import ModuleRepair.Specifier

/-!
# Source files

A source file is a module in memory: its path, its text, and the text that the disk holds. What it
imports and exports is always read from the text as it is now.
-/
namespace ModuleRepair

open ModuleRepair.Text ModuleRepair.Script

/-- A module in memory. -/
structure SourceFile where
  /-- The path, in normal form. -/
  path : String
  text : String
  /-- The text when it was last read or written. -/
  saved : String
  root : AliasRoot
  deriving DecidableEq, Repr

namespace SourceFile

/-- A file of the given text that is not modified. -/
def ofText (path text : String) (root : AliasRoot) : SourceFile :=
  ⟨Path.absolute path, text, text, root⟩

/-- Whether the text differs from that on the disk. -/
def isModified (f : SourceFile) : Bool :=
  f.text ≠ f.saved

def baseName (f : SourceFile) : String :=
  Path.name f.path

/-- The name of the file without its extension. -/
def stem (f : SourceFile) : String :=
  let name := f.baseName.toList
  match declarationEndings.find? (·.toList.isSuffixOf name) with
  | some ending => String.ofList (name.take (name.length - ending.toList.length))
  | none => Path.withoutExtension f.baseName

/-- Whether the file holds declarations only. -/
def isDeclarationFile (f : SourceFile) : Bool :=
  Script.isDeclarationFile f.path

/-- Whether the file belongs to a vendored package. -/
def isVendored (f : SourceFile) : Bool :=
  Script.isVendored f.path

/-- Whether a repair may change the file. -/
def isTarget (f : SourceFile) : Bool :=
  !f.isVendored && !f.isDeclarationFile

/-- The file as it is named in messages. -/
def description (f : SourceFile) : String :=
  "SourceFile(" ++ quoted f.path ++ ")"

/-- The specifier by which other modules import the file. -/
def specifier? (f : SourceFile) : Option String :=
  f.root.specifier? f.path

def lineEnd (f : SourceFile) : String :=
  if contains ['\r', '\n'] f.text.toList then "\r\n" else "\n"

/-- The outline of the file; nothing within when the file is broken. -/
def read (f : SourceFile) : Except LanguageError (Option Outline) := do
  let l ← Language.ofPath f.path
  return outline? l f.text

/-- The outline of the file. A broken file has an empty one. -/
def outline (f : SourceFile) : Except LanguageError Outline := do
  return (← f.read).getD {}

/-- An import by its position; a negative position counts from the end. -/
def importAt? (o : Outline) (position : Int) : Option Import :=
  if position < 0 then
    if position.natAbs ≤ o.imports.length then o.imports[o.imports.length - position.natAbs]?
    else none
  else o.imports[position.toNat]?

end SourceFile

end ModuleRepair
