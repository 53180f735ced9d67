import ModuleRepair.Preprocess.Files
import ModuleRepair.Run.Passes

/-!
# Performing a job

Preprocessing writes files at once. Everything else is written together at the end, and only by a
run that ends in time. Whatever happens, the session is closed.
-/
namespace ModuleRepair

/-- What a run leaves. -/
structure Ended where
  disk : Disk
  /-- The session, which is closed. -/
  session : Session
  /-- Why the run ended early, if it did. -/
  error : Option RunError := none

namespace Job

/-- The files that are given, without empty names. -/
def givenFiles (job : Job) : Job :=
  { job with files := job.files.filter (· ≠ "") }

/-- Preprocesses the targets, unless this is to be skipped. -/
def preprocess (job : Job) (d : Disk) (targets : List String) : Preprocess.Progress :=
  if job.settings.skipPreprocessing then { disk := d }
  else Preprocess.files ⟨job.settings.clientModules, job.settings.clientDirective⟩ d targets

/-- The session before anything is loaded, when the clock was read once. -/
def session (job : Job) (directory : String) (notices : List Notice) : Session where
  work :=
    { project := .empty directory job.settings.sourceRoot job.settings.mark job.settings.indexMode
      notices }
  readings := 1

/-- Writes the project of a session, and closes the session. The clock is read a last time. -/
def finish (d : Disk) (s : Session) : Ended :=
  let saved := s.work.project.save d
  let work := { s.work with
    project := saved.project
    notices := s.work.notices ++ saved.notices }
  { disk := saved.disk, session := Session.close { s with work, readings := s.readings + 1 } }

/-- Ends a run early; what is in memory is lost. -/
def abandon (d : Disk) (s : Session) (error : RunError) : Ended :=
  let notices := match error with
    | .timedOut .. => [.stopped error.message]
    | .notLoaded _ => []
  let work := { s.work with notices := s.work.notices ++ notices }
  { disk := d, session := Session.close { s with work }, error := some error }

/-- Performs a job whose project exists. -/
def perform (job : Job) (tools : Tools) (clock : Nat → Float) (d : Disk) : Ended :=
  let directory := Path.absolute job.directory
  let (targets, missing) := Target.paths d directory job.files
  let prepared := job.preprocess d targets
  let run : Run :=
    { job, directory, targets, disk := prepared.disk, tools, clock
      deadline := ⟨some job.settings.timeoutSeconds, clock 0⟩ }
  match run.phases.run (job.session directory (missing ++ prepared.notices)) with
  | (.ok (), s) => finish prepared.disk s
  | (.error e, s) => abandon prepared.disk s e

def run (job : Job) (tools : Tools) (clock : Nat → Float) (d : Disk) : Ended :=
  let job := job.givenFiles
  if job.directory = "" ∨ !d.isDirectory job.directory then
    abandon d (job.session job.directory []) (.notLoaded (.missingDirectory job.directory))
  else job.perform tools clock d

end Job

end ModuleRepair
