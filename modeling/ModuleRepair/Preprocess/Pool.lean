import ModuleRepair.Preprocess.Files

/-!
# Preprocessing files at the same time

A pool of workers has one job for each file. Jobs are begun in the order of the files, with no more
of them under way than there are workers. Those under way go on in any order, and what they do to
the disk is mixed.
-/
namespace ModuleRepair.Preprocess

/-- How a job ends. -/
inductive Outcome where
  | unchanged
  | changed
  | failed
  deriving DecidableEq, Repr

/-- How far the job of a file has come. -/
inductive Stage where
  | waiting
  /-- A worker has taken it up. -/
  | begun
  /-- It has read the file, and is to put new bytes into it. -/
  | ready (new : ByteArray)
  /-- It has opened the file for writing, and so emptied it. -/
  | opened (new : ByteArray)
  | ended (outcome : Outcome)

namespace Stage

def isWaiting : Stage → Bool
  | waiting => true
  | _ => false

/-- Whether the job keeps a worker busy. -/
def isBusy : Stage → Bool
  | begun | ready _ | opened _ => true
  | _ => false

def isEnded : Stage → Bool
  | ended _ => true
  | _ => false

/-- Whether the job has rewritten its file. -/
def isChanged : Stage → Bool
  | ended .changed => true
  | _ => false

/-- What a job reports when it has come to its end. -/
def notices (path : String) : Stage → List Notice
  | ended .failed => [.preprocessFailed (Path.name path)]
  | _ => []

/-- What a job does next, and the disk after it. -/
def next (rules : Rules) (path : String) (d : Disk) : Stage → Stage × Disk
  | waiting => (begun, d)
  | begun =>
    match d.read path with
    | .error _ => (ended .failed, d)
    | .ok bytes =>
      match newBytes? rules bytes with
      | none => (ended .failed, d)
      | some none => (ended .unchanged, d)
      | some (some new) => (ready new, d)
  | ready new =>
    match d.write path .empty with
    | .error _ => (ended .failed, d)
    | .ok d => (opened new, d)
  | opened new =>
    match d.write path new with
    | .error _ => (ended .failed, d)
    | .ok d => (ended .changed, d)
  | ended outcome => (ended outcome, d)

end Stage

/-- The jobs of some files, and what they have done so far. -/
structure Pool where
  disk : Disk
  /-- How far each job has come, in the order of the files. -/
  jobs : List (String × Stage)
  notices : List Notice := []

namespace Pool

/-- No job has begun. -/
def start (d : Disk) (paths : List String) : Pool where
  disk := d
  jobs := paths.map (·, .waiting)

def Ended (s : Pool) : Prop :=
  ∀ job ∈ s.jobs, job.2.isEnded = true

/-- The paths of the files that were rewritten, in the order of the files. -/
def changed (s : Pool) : List String :=
  (s.jobs.filter (·.2.isChanged)).map (·.1)

/-- The number of jobs that are under way. -/
def busy (jobs : List (String × Stage)) : Nat :=
  jobs.countP (·.2.isBusy)

/-- The number of workers: as many as allowed, at least one, and no more than there are files. -/
def workersFor (most : Int) (paths : List String) : Nat :=
  min (max 1 most).toNat paths.length

/-- Whether a job may go on. A waiting one is begun when none waits in front of it and a worker is
free. -/
def MayGo (workers : Nat) (front : List (String × Stage)) (stage : Stage)
    (back : List (String × Stage)) : Prop :=
  stage.isBusy = true ∨ stage.isWaiting = true ∧
    (∀ job ∈ front, job.2.isWaiting = false) ∧ busy (front ++ back) < workers

/-- One job goes on, whichever it is. -/
inductive Step (rules : Rules) (workers : Nat) : Pool → Pool → Prop
  | goesOn {d : Disk} {front back : List (String × Stage)} {path : String} {stage : Stage}
      {notices : List Notice} : MayGo workers front stage back →
      Step rules workers ⟨d, front ++ (path, stage) :: back, notices⟩
        ⟨(stage.next rules path d).2, front ++ (path, (stage.next rules path d).1) :: back,
          notices ++ (stage.next rules path d).1.notices path⟩

end Pool

end ModuleRepair.Preprocess
