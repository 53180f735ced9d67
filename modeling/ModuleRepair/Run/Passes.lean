import ModuleRepair.BuildLog.Repair
import ModuleRepair.Export.Normalize
import ModuleRepair.Run.Session
import ModuleRepair.Run.Target
import ModuleRepair.SourceFile.Organize

/-!
# The passes of a run

The passes change modules in memory only, and answer the paths of those that they have changed. The
time is checked between them, never within one.
-/
namespace ModuleRepair.Run

def collectDiagnostics (r : Run) : Phase DiagnosticsByFile := do
  if !r.job.source.isThere then return []
  let collected := r.job.source.collect r.tools r.disk r.directory (← r.remaining)
  modify fun s => { s with calls := s.calls ++ collected.calls }
  Phase.report collected.notices
  return collected.diagnostics

/-- Loads the project. Without given files the whole tree is loaded in any mode. -/
def loadProject (r : Run) : Phase Unit := do
  let settings := r.settings
  let mode := if r.job.files.isEmpty then .full else settings.indexMode
  match Project.load r.disk r.directory settings.sourceRoot settings.mark r.targets mode with
  | .error e => throw (.notLoaded e)
  | .ok (project, notices) =>
    modify fun s => { s with work := { s.work with project } }
    Phase.report notices

/-- Builds the export surface of the project as it is now. -/
def buildSurface (r : Run) : Phase Unit := do
  let limits := r.settings.limits
  let (surface, notices) := (← get).work.project.surface (r.settings.cap limits.scannedModules)
    (r.settings.cap limits.exportEntries)
  modify fun s => { s with surface }
  Phase.report notices

/-- Converts the default exports of the allowed modules. The surface is built anew, since it has
changed. -/
def normalizeExports (r : Run) : Phase (List String) := do
  if r.settings.allowList.isEmpty then return []
  let touched ← Phase.ofStep (Normalize.paths r.settings.allowList)
  r.buildSurface
  r.check "named-export normalization"
  return touched

/-- What the repair of a file can draw on. -/
def repairs (r : Run) (surface : Surface) : Repairs where
  surface
  special := r.settings.special
  limit := r.settings.cap r.settings.limits.diagnosticsPerFile

/-- Repairs one batch of targets, and answers what was done to each of those that changed. -/
def fixBatch (r : Run) (diagnostics : DiagnosticsByFile) (batch : List String) :
    Phase (List (String × List FixAction)) := do
  r.check "diagnostic fixes"
  let repairs := r.repairs (← get).surface
  let done ← Phase.ofStep (repairs.fixFiles batch diagnostics)
  Phase.ofStep (Work.count fun s => { s with filesProcessed := s.filesProcessed + batch.length })
  return done

/-- Repairs all targets, batch by batch. What was done counts only when all batches are through. -/
def fixDiagnostics (r : Run) (diagnostics : DiagnosticsByFile) : Phase (List String) := do
  let targets := Target.modules (← get).work.project r.job.files r.targets
  let batches := Target.batchesOf (r.settings.cap r.settings.limits.filesPerBatch) targets
  let done := (← batches.mapM (r.fixBatch diagnostics)).flatten
  modify fun s => { s with actions := done.flatMap (·.2) }
  return done.map (·.1)

/-- Repairs what the build log reports. -/
def fixBuildLog (r : Run) : Phase (List String) := do
  if r.job.buildLog = "" then return []
  r.check "build-log resolution"
  Phase.ofStep (BuildLog.repair r.job.buildLog)

def repair (r : Run) (diagnostics : DiagnosticsByFile) : Phase (List String) := do
  r.buildSurface
  r.check "export surface"
  let normalized ← r.normalizeExports
  let fixed ← r.fixDiagnostics diagnostics
  let mended ← r.fixBuildLog
  return sortedPaths (normalized ++ fixed ++ mended)

/-- Organizes the imports of one module. -/
def organizeOne (path : String) : Step Unit := do
  match (← get).project.get? path with
  | none => return ()
  | some f =>
    let attempt : Attempt Unit := do Work.putFile (← Attempt.of f.organize)
    attempt.orReport () (.organizeFailed f.baseName)

/-- Everything between preprocessing and writing. -/
def phases (r : Run) : Phase Unit := do
  r.check "preprocessing"
  let diagnostics ← r.collectDiagnostics
  r.check "diagnostic collection"
  r.loadProject
  r.check "project loading"
  let touched ← r.repair diagnostics
  for path in touched do Phase.ofStep (organizeOne path)
  r.check "persisting"

end ModuleRepair.Run
