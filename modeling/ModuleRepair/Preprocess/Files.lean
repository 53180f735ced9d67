import ModuleRepair.Preprocess.Text
import ModuleRepair.Text.Utf8
import ModuleRepair.Disk
import ModuleRepair.Notice

/-!
# Preprocessing files

Each file is read, changed and written on its own. One that cannot be read or written is passed
over with a notice.
-/
namespace ModuleRepair.Preprocess

open ModuleRepair.Text

/-- What has come of preprocessing files so far. -/
structure Progress where
  disk : Disk
  /-- The paths of the rewritten files. -/
  changed : List String := []
  notices : List Notice := []

/-- The new bytes of a file: nothing inside when no step changes it, and nothing at all when its
bytes are no text. -/
def newBytes? (rules : Rules) (bytes : ByteArray) : Option (Option ByteArray) :=
  match decode bytes with
  | .error _ => none
  | .ok s =>
    let (result, steps) := text rules s.toList
    some (if steps.isEmpty then none else some (String.ofList result).toUTF8)

def file (rules : Rules) (p : Progress) (path : String) : Progress :=
  let failed := { p with notices := p.notices ++ [.preprocessFailed (Path.name path)] }
  match p.disk.read path with
  | .error _ => failed
  | .ok bytes =>
    match newBytes? rules bytes with
    | none => failed
    | some none => p
    | some (some bytes) =>
      match p.disk.write path bytes with
      | .error _ => failed
      | .ok disk => { p with disk, changed := p.changed ++ [path] }

def files (rules : Rules) (d : Disk) (paths : List String) : Progress :=
  paths.foldl (file rules) { disk := d }

end ModuleRepair.Preprocess
