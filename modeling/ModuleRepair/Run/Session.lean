import ModuleRepair.Diagnostic.Repair
import ModuleRepair.Diagnostic.Source
import ModuleRepair.Run.Deadline
import ModuleRepair.Settings.Basic

/-!
# Sessions

A run is asked for by a job. Its session holds everything that changes while it goes on, apart from
the disk: what is written there is decided at the end. A phase of a run may end it early; what the
session holds then stays.
-/
namespace ModuleRepair

open ModuleRepair.Decimal

/-- What a run is asked to do. -/
structure Job where
  /-- The directory of the project, in any spelling. -/
  directory : String
  /-- The files to repair; none stand for all. -/
  files : List String := []
  buildLog : String := ""
  settings : Settings := {}
  source : Source := .nowhere

/-- Why a run ends early. -/
inductive RunError where
  | notLoaded (error : LoadError)
  | timedOut (deadline : Deadline) (phase : String)

/-- The error in words. -/
def RunError.message : RunError → String
  | notLoaded error => error.message
  | timedOut deadline phase => deadline.message phase

/-- What a run works with. -/
structure Session where
  work : Work
  surface : Surface := {}
  /-- How often the clock was read. -/
  readings : Nat := 0
  actions : List FixAction := []
  /-- The calls of tools. -/
  calls : List Call := []

/-- The session without its modules and names. What was done and reported stays. -/
def Session.close (s : Session) : Session :=
  { s with
    work := { s.work with project := s.work.project.release }
    surface := s.surface.clear }

/-- A part of a run. -/
abbrev Phase := ExceptT RunError (StateM Session)

namespace Phase

/-- A step of a repair as a phase. -/
def ofStep {α : Type} (step : Step α) : Phase α := do
  let s ← get
  let (result, work) := step.run s.work
  set { s with work }
  return result

/-- Adds notices. -/
def report (notices : List Notice) : Phase Unit :=
  modify fun s => { s with work := { s.work with notices := s.work.notices ++ notices } }

end Phase

/-- What stays the same during a run. -/
structure Run where
  job : Job
  /-- The directory of the project, in normal form. -/
  directory : String
  /-- The paths of the files to repair. -/
  targets : List String
  /-- The disk as preprocessing has left it. -/
  disk : Disk
  tools : Tools
  /-- What the clock shows at each of its readings. -/
  clock : Nat → Float
  deadline : Deadline

namespace Run

def settings (r : Run) : Settings :=
  r.job.settings

/-- Reads the clock. -/
def now (r : Run) : Phase Float := do
  let s ← get
  set { s with readings := s.readings + 1 }
  return r.clock s.readings

/-- Ends the run if its time is over. Without a limit the clock is not read. -/
def check (r : Run) (phase : String) : Phase Unit := do
  if r.deadline.expires.isSome then
    if r.deadline.expired (← r.now) then throw (.timedOut r.deadline phase)

/-- The time that is left. Without a limit the clock is not read. -/
def remaining (r : Run) : Phase (Option Number) := do
  if r.deadline.expires.isSome then
    return (r.deadline.remaining (← r.now)).map Number.real
  else return none

end Run

end ModuleRepair
