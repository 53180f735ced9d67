import ModuleRepair.SourceFile.Basic
import ModuleRepair.Disk
import ModuleRepair.Notice

/-!
# The project index

The modules of a project in memory, in the order of their paths, each path once. Any spelling of a
path finds a module; relative paths are taken from the project's directory.
-/
namespace ModuleRepair

open ModuleRepair.Text ModuleRepair.Script

/-- Which modules an index holds: the whole tree, or only given files. -/
inductive IndexMode where
  | full
  | targeted
  deriving DecidableEq, Repr

namespace IndexMode

def name : IndexMode → String
  | full => "full"
  | targeted => "targeted"

def ofName? : String → Option IndexMode
  | "full" => some full
  | "targeted" => some targeted
  | _ => none

/-- The names of all modes. -/
def names : List String := [full.name, targeted.name]

end IndexMode

/-- The modules of a project. -/
structure Project where
  directory : String
  root : AliasRoot
  mode : IndexMode
  /-- The modules, in the order of their paths. -/
  files : List SourceFile := []
  deriving DecidableEq, Repr

namespace Project

/-- A project without modules. The directory that the alias stands for is taken from that of the
project. -/
def empty (directory sourceRoot mark : String) (mode : IndexMode) : Project where
  directory := Path.absolute directory
  root := ⟨mark, Path.absolute (Path.join (Path.absolute directory) sourceRoot)⟩
  mode

/-- The normal form of a path, by which modules are found. -/
def resolvePath (p : Project) (path : String) : String :=
  Path.absolute (Path.join p.directory path)

/-- The module under a normal path. -/
def find? (p : Project) (path : String) : Option SourceFile :=
  p.files.find? (·.path = path)

/-- The module under any spelling of its path. -/
def get? (p : Project) (path : String) : Option SourceFile :=
  p.find? (p.resolvePath path)

/-- The report that no module lies under a path. -/
def notFoundMessage (path : String) : String :=
  "Source file not found in project: " ++ path

/-- Puts a module at its place in a list. -/
def insert (f : SourceFile) : List SourceFile → List SourceFile
  | [] => [f]
  | g :: rest =>
    if g.path = f.path then f :: rest
    else if f.path < g.path then f :: g :: rest
    else g :: insert f rest

/-- The project with a module added, or changed. -/
def put (p : Project) (f : SourceFile) : Project :=
  { p with files := insert f p.files }

/-- The project without the module under a path. -/
def erase (p : Project) (path : String) : Project :=
  { p with files := p.files.filter (·.path ≠ p.resolvePath path) }

/-- The project without its modules. -/
def release (p : Project) : Project :=
  { p with files := [] }

/-- The modules that a repair may change. -/
def targets (p : Project) : List SourceFile :=
  p.files.filter (·.isTarget)

/-- The modules whose text differs from that on the disk. -/
def modified (p : Project) : List SourceFile :=
  p.files.filter (·.isModified)

/-- The extensions tried for a specifier without one, in order. -/
def triedExtensions : List String := [".ts", ".tsx", ".js", ".jsx"]

/-- The paths that a base path may stand for: itself, with an extension, or an index module. -/
def candidates (base : String) : List String :=
  base :: triedExtensions.map (base ++ ·) ++
    triedExtensions.map fun extension => Path.join base ("index" ++ extension)

/-- The path that a specifier of an importing file leads to, before any extension. Packages have
none. -/
def basePath? (p : Project) (importer specifier : String) : Option String :=
  match afterStart? p.root.mark.toList specifier.toList with
  | some below => some (Path.absolute (Path.join p.root.directory (String.ofList below)))
  | none =>
    if specifier.toList.head? = some '.' then
      some (Path.absolute (Path.join (Path.directory (p.resolvePath importer)) specifier))
    else none

/-- The module that a specifier of an importing file leads to. -/
def resolve? (p : Project) (importer specifier : String) : Option SourceFile :=
  match p.basePath? importer specifier with
  | some base => (candidates base).findSome? p.find?
  | none => none

/-- The first module with the given specifier. -/
def findSpecifier? (p : Project) (specifier : String) : Option SourceFile :=
  p.files.find? (·.specifier? = some specifier)

/-- Whether a module's path, without its extension, ends with a tail or an index module below. -/
def endsWith (tail : List Char) (f : SourceFile) : Bool :=
  let stem := (Path.forwardSlashes (Path.withoutExtension f.path)).toList
  ('/' :: tail).isSuffixOf stem || ('/' :: (tail ++ "/index".toList)).isSuffixOf stem

/-- The module that a specifier names wherever it is written: the one with this very specifier, or
else the first one whose path ends with its tail. -/
def locate? (p : Project) (specifier : String) : Option SourceFile :=
  match p.findSpecifier? specifier with
  | some f => some f
  | none =>
    let tail := p.root.tail specifier
    if tail.isEmpty then none else p.files.find? (endsWith tail)

end Project

end ModuleRepair
