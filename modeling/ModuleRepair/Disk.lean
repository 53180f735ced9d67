import ModuleRepair.Path

/-!
# The disk

A disk holds files and directories under normal absolute paths. Looking a path up walks along its
segments, so that every directory on the way must be there. Writing never makes a directory: it
changes a file in place or adds one to a directory that exists.
-/
namespace ModuleRepair

open ModuleRepair.Text

/-- What a path leads to. -/
inductive Node where
  | file (bytes : ByteArray)
  | directory

instance : DecidableEq Node
  | .file a, .file b =>
    match ByteArray.instDecidableEq a b with
    | isTrue same => isTrue (congrArg Node.file same)
    | isFalse other => isFalse fun same => other (Node.file.inj same)
  | .directory, .directory => isTrue rfl
  | .file _, .directory => isFalse Node.noConfusion
  | .directory, .file _ => isFalse Node.noConfusion

/-- Files and directories by their paths. The root is always there. -/
structure Disk where
  nodes : List (String × Node) := []

/-- Why a path cannot be read or written. -/
inductive DiskFault where
  | missing
  | isDirectory
  | notDirectory
  deriving DecidableEq, Repr

namespace Disk

def node? (d : Disk) (path : String) : Option Node :=
  if path = "/" then some .directory else d.nodes.lookup path

/-- Follows segments from a directory down. -/
def follow (d : Disk) : List Path.Segment → String → Except DiskFault String
  | [], here => .ok here
  | s :: rest, here =>
    match d.node? here with
    | none => .error .missing
    | some (.file _) => .error .notDirectory
    | some .directory =>
      if s = [] ∨ s = ['.'] then follow d rest here
      else if s = Path.parent then follow d rest (Path.directory here)
      else follow d rest (Path.join here (String.ofList s))

/-- The normal path of what a path leads to. What lies there need not exist; what lies on the way
must. -/
def locate (d : Disk) (path : String) : Except DiskFault String :=
  if path = "" then .error .missing else d.follow (split '/' path.toList) "/"

/-- What a path leads to. -/
def find? (d : Disk) (path : String) : Option Node :=
  match d.locate path with
  | .ok here => d.node? here
  | .error _ => none

def isDirectory (d : Disk) (path : String) : Bool :=
  d.find? path = some .directory

def isFile (d : Disk) (path : String) : Bool :=
  match d.find? path with
  | some (.file _) => true
  | _ => false

/-- Whether a path leads anywhere. -/
def has (d : Disk) (path : String) : Bool :=
  (d.find? path).isSome

/-- The bytes of a file. -/
def read (d : Disk) (path : String) : Except DiskFault ByteArray := do
  match d.node? (← d.locate path) with
  | some (.file bytes) => return bytes
  | some .directory => throw .isDirectory
  | none => throw .missing

/-- The disk with one node changed, or added at the end. -/
def set (d : Disk) (path : String) (node : Node) : Disk :=
  if (d.nodes.lookup path).isSome then
    ⟨d.nodes.map fun entry => if entry.1 = path then (path, node) else entry⟩
  else ⟨d.nodes ++ [(path, node)]⟩

/-- Writes a file into a directory that exists. -/
def write (d : Disk) (path : String) (bytes : ByteArray) : Except DiskFault Disk := do
  let here ← d.locate path
  match d.node? here, d.node? (Path.directory here) with
  | some .directory, _ => throw .isDirectory
  | some (.file _), _ | none, some .directory => return d.set here (.file bytes)
  | none, some (.file _) => throw .notDirectory
  | none, none => throw .missing

/-- Writes a file unless it is locked: locked files cannot be opened for writing. -/
def writeUnlocked (d : Disk) (locked : String → Bool) (path : String) (bytes : ByteArray) :
    Option Disk :=
  match d.locate path with
  | .ok here => if locked here then none else (d.write path bytes).toOption
  | .error _ => none

/-- The disk with the directories above a path. -/
def withAncestors (d : Disk) (path : String) : Disk :=
  (Path.ancestors path).foldl (fun d directory =>
    if (d.node? directory).isSome then d else d.set directory .directory) d

/-- Puts a node under a path, with the directories above it. -/
def put (d : Disk) (path : String) (node : Node) : Disk :=
  (d.withAncestors path).set (Path.absolute path) node

/-- The disk without what lies under a path. -/
def erase (d : Disk) (path : String) : Disk :=
  ⟨d.nodes.filter (·.1 ≠ Path.absolute path)⟩

end Disk

end ModuleRepair
