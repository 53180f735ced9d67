import ModuleRepair.Project.Index

/-!
# Projects on the disk

Finding the modules below a directory, reading them into an index, and writing changed ones back. A
file that cannot be read or written is passed over with a notice.
-/
namespace ModuleRepair

open ModuleRepair.Text ModuleRepair.Script

/-- Why a project cannot be loaded. -/
inductive LoadError where
  | missingDirectory (directory : String)
  | unknownMode (mode : String)
  deriving DecidableEq, Repr

/-- The error in words. -/
def LoadError.message : LoadError → String
  | missingDirectory directory => "Project directory does not exist: " ++ directory
  | unknownMode mode => "Unknown index mode: " ++ mode ++ ". Supported: ["
      ++ String.intercalate ", " (IndexMode.names.map quoted) ++ "]"

/-- The largest size in bytes of a file that is loaded from a tree: two mebibytes. -/
def largestFile : Int := 2 * 1024 * 1024

/-- The whole bytes of a number of mebibytes. -/
def mebibytes : Decimal.Number → Int
  | .whole n => n * 1024 * 1024
  | .real x => Decimal.floor (x * 1048576.0)

/-- What is left of a path below a directory; both are normal. -/
def belowDirectory? (directory path : String) : Option String :=
  let start := if directory = "/" then directory else directory ++ "/"
  (afterStart? start.toList path.toList).map String.ofList

/-- The name of what lies right in a directory, from its path; both are normal. -/
def entryName? (directory path : String) : Option String :=
  (belowDirectory? directory path).filter fun name =>
    name ≠ "" ∧ name ≠ "." ∧ name ≠ ".." ∧ '/' ∉ name.toList

/-- The names of what lies right in a directory, each once; nothing lies in what is no directory. -/
def Disk.entries (d : Disk) (here : String) : List String :=
  if d.node? here = some .directory then
    (d.nodes.filterMap fun entry => entryName? here entry.1).eraseDups
  else []

/-- What a walk finds at one entry of a directory: directories that are passed over are not gone
into, and files that are too large are left out. `here` is where the directory lies, `directory` how
it is written, and `deeper` how the walk goes on below. -/
def visit (d : Disk) (limit : Int) (deeper : String → String → List String)
    (here directory name : String) : List String :=
  match d.node? (Path.join here name) with
  | some (.file bytes) =>
    if isSupported name && (bytes.size : Int) ≤ limit then
      [Path.absolute (Path.join directory name)]
    else []
  | some .directory =>
    if isSkippedDirectory name then [] else deeper (Path.join here name) (Path.join directory name)
  | none => []

/-- The modules below a directory, as a walk of at most the given depth comes upon them. -/
def walk (d : Disk) (limit : Int) : Nat → String → String → List String
  | 0, _, _ => []
  | depth + 1, here, directory =>
    (d.entries here).flatMap (visit d limit (walk d limit depth) here directory)

/-- The paths in order. -/
def inPathOrder (paths : List String) : List String :=
  paths.mergeSort fun a b => decide (a ≤ b)

/-- The paths in order, each once. -/
def sortedPaths (paths : List String) : List String :=
  inPathOrder paths.eraseDups

/-- The modules below a directory, in the order of their paths. No path goes deeper than there are
nodes. -/
def collectFiles (d : Disk) (directory : String) (limit : Int) : List String :=
  match d.locate directory with
  | .error _ => []
  | .ok here => inPathOrder (walk d limit d.nodes.length here directory)

namespace Project

/-- Reads one file into the index. -/
def addFromDisk (d : Disk) (p : Project) (path : String) : Project × Option Notice :=
  let path := p.resolvePath path
  match d.read path with
  | .ok bytes =>
    match decode bytes with
    | .ok text => (p.put (.ofText path text p.root), none)
    | .error _ => (p, some (.loadFailed path))
  | .error _ => (p, some (.loadFailed path))

/-- Reads files into the index, and collects the notices. -/
def addAll (d : Disk) (paths : List String) (p : Project) : Project × List Notice :=
  paths.foldl (fun (p, notices) path =>
    let (p, notice) := p.addFromDisk d path
    (p, notices ++ notice.toList)) (p, [])

/-- The paths that a project loads: in full mode all modules of the tree, and given files in any
mode. -/
def pathsToLoad (d : Disk) (p : Project) (files : List String) : List String :=
  let chosen := (files.map p.resolvePath).filter isSupported
  match p.mode with
  | .full => sortedPaths (collectFiles d p.directory largestFile ++ chosen)
  | .targeted => sortedPaths chosen

def load (d : Disk) (directory sourceRoot mark : String) (files : List String) (mode : IndexMode) :
    Except LoadError (Project × List Notice) :=
  if directory = "" ∨ !d.isDirectory directory then .error (.missingDirectory directory)
  else
    let p := empty directory sourceRoot mark mode
    .ok (p.addAll d (p.pathsToLoad d files))

/-- Loads a project in the mode of the given name. A missing directory is found before an unknown
mode. -/
def loadNamed (d : Disk) (directory sourceRoot mark : String) (files : List String)
    (mode : String) : Except LoadError (Project × List Notice) :=
  match IndexMode.ofName? mode with
  | some mode => load d directory sourceRoot mark files mode
  | none => do
    let _ ← load d directory sourceRoot mark [] .targeted
    throw (.unknownMode mode)

/-- The result of writing a project back. -/
structure Saved where
  disk : Disk
  project : Project
  /-- The paths that were written. -/
  written : List String := []
  notices : List Notice := []

/-- Writes one module back, unless its file is locked. -/
def saveOne (locked : String → Bool) (s : Saved) (f : SourceFile) : Saved :=
  match s.disk.writeUnlocked locked f.path f.text.toUTF8 with
  | some disk =>
    { s with
      disk
      project := s.project.put { f with saved := f.text }
      written := s.written ++ [f.path] }
  | none => { s with notices := s.notices ++ [.saveFailed f.path] }

/-- Writes all modified modules back. Unless it is said otherwise, no file is locked. -/
def save (d : Disk) (p : Project) (locked : String → Bool := fun _ => false) : Saved :=
  p.modified.foldl (saveOne locked) ⟨d, p, [], []⟩

end Project

end ModuleRepair
