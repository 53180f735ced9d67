import ModuleRepair.Project.Storage

/-!
# Targets

The targets of a run are the files that it was given, or else all modules of the tree that may be
repaired. They are repaired in batches.
-/
namespace ModuleRepair.Target

open ModuleRepair.Script

/-- All modules of a tree that may be repaired. -/
def all (d : Disk) (directory : String) : List String :=
  (collectFiles d directory largestFile).filter fun path =>
    !isDeclarationFile path && !isVendored path

/-- The path of one given file, unless it is no module; or a notice when it does not exist. -/
def given (d : Disk) (directory file : String) : Option String × Option Notice :=
  let path := Path.normalize (Path.join directory file)
  if !d.isFile path then (none, some (.targetMissing file))
  else if isSupported path then (some path, none)
  else (none, none)

/-- The paths of the targets, and a notice for each given file that does not exist. -/
def paths (d : Disk) (directory : String) (files : List String) : List String × List Notice :=
  if files.isEmpty then (all d directory, [])
  else
    let found := files.map (given d directory)
    (found.filterMap (·.1), found.filterMap (·.2))

/-- The targets among the modules of a project: those at the given paths, or all. -/
def modules (p : Project) (files paths : List String) : List String :=
  if files.isEmpty then p.targets.map (·.path)
  else (paths.filterMap p.get?).filter (·.isTarget) |>.map (·.path)

/-- A list in batches of `size + 1`; the last batch may be shorter. -/
def batches {α : Type} (size : Nat) : List α → List (List α)
  | [] => []
  | x :: rest => (x :: rest.take size) :: batches size (rest.drop size)
termination_by xs => xs.length
decreasing_by simp only [List.length_drop, List.length_cons]; omega

/-- Batches of at most the given number of targets, but of at least one; without a number there is a
single batch. -/
def batchesOf {α : Type} (limit : Option Int) (targets : List α) : List (List α) :=
  match limit with
  | some limit => batches (limit - 1).toNat targets
  | none => batches (targets.length - 1) targets

end ModuleRepair.Target
