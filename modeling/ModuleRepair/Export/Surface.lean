import ModuleRepair.Export.Entry
import ModuleRepair.Repair.Work

/-!
# The export surface

All names that the modules of a project offer, each from the first module that offers it. A surface
may have a limit, beyond which names are counted and dropped.
-/
namespace ModuleRepair

open ModuleRepair.Text ModuleRepair.Script

/-- Names and where to import them from, in the order in which they were added. -/
structure Surface where
  limit : Option Int := none
  entries : List ExportEntry := []
  /-- The number of new names that found no room. -/
  dropped : Nat := 0
  deriving DecidableEq, Repr

namespace Surface

def get? (s : Surface) (name : String) : Option ExportEntry :=
  s.entries.find? (·.name = name)

/-- Whether a name has an entry. -/
def contains (s : Surface) (name : String) : Bool :=
  s.entries.any (·.name = name)

/-- Whether there is no room for a new name. -/
def isFull (s : Surface) : Bool :=
  match s.limit with
  | none => false
  | some n => n ≤ s.entries.length

/-- Adds an entry, unless its name has one or there is no room; tells whether it was added. -/
def add (s : Surface) (e : ExportEntry) : Bool × Surface :=
  if s.contains e.name then (false, s)
  else if s.isFull then (false, { s with dropped := s.dropped + 1 })
  else (true, { s with entries := s.entries ++ [e] })

def addAll (s : Surface) (entries : List ExportEntry) : Surface :=
  entries.foldl (fun s e => (s.add e).2) s

/-- The surface without entries. -/
def clear (s : Surface) : Surface :=
  { s with entries := [], dropped := 0 }

end Surface

namespace Project

/-- The modules whose exports can be offered: repairable ones with a specifier. -/
def offering (p : Project) : List SourceFile :=
  p.targets.filter (·.specifier?.isSome)

/-- The entries of a module, or a notice when it cannot be read. -/
def entriesOf (f : SourceFile) : List ExportEntry × Option Notice :=
  match f.exports with
  | .ok entries => (entries, none)
  | .error e => ([], some (.exportsFailed f.baseName e))

/-- The surface of a project, from the first modules that a limit allows, and the notices. -/
def surface (p : Project) (maxModules maxEntries : Option Int) : Surface × List Notice :=
  let scanned := (upTo maxModules p.offering).map entriesOf
  let surface : Surface := Surface.addAll { limit := maxEntries } (scanned.flatMap (·.1))
  let notices := scanned.filterMap (·.2)
  (surface, if surface.entries.isEmpty then notices ++ [.surfaceEmpty] else notices)

end Project

end ModuleRepair
