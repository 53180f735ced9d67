import ModuleRepair.Script.Module
import ModuleRepair.Disk
import ModuleRepair.Text.Utf8

/-!
# Modules on the disk

A file that is only looked at is read leniently: ill-formed bytes become replacement characters, and
every line ends with a line feed.
-/
namespace ModuleRepair.Script

open ModuleRepair.Text

/-- The text of a file that is only looked at. -/
def readLenient (d : Disk) (path : String) : Except DiskFault String := do
  return String.ofList (unifyLineEnds (decodeLossy (← d.read path)).toList)

/-- The outline of a file in a language; nothing within when the file is broken. -/
def outlineOfFile (d : Disk) (l : Language) (path : String) :
    Except DiskFault (Option Outline) := do
  return outline? l (← readLenient d path)

end ModuleRepair.Script
