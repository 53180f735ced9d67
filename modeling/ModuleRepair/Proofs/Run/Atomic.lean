import ModuleRepair.Proofs.Preprocess.Files
import ModuleRepair.Proofs.Run.Passes
import ModuleRepair.Run.Perform

/-!
# A run writes everything or nothing

Apart from preprocessing, a run that ends early has not touched the disk, wherever it ends. A
missing directory is found before preprocessing, and preprocessing removes no directory, so that
loading finds it again.
-/
namespace ModuleRepair.Job

/-- The time that a job has, from the first reading of the clock. -/
def deadline (job : Job) (clock : Nat → Float) : Deadline :=
  ⟨some job.settings.timeoutSeconds, clock 0⟩

/-- Whether the directory of a job is missing. -/
def Homeless (job : Job) (d : Disk) : Prop :=
  job.directory = "" ∨ d.isDirectory job.directory = false

/-- The paths that preprocessing goes through. -/
def targets (job : Job) (d : Disk) : List String :=
  (Target.paths d (Path.absolute job.directory) job.files).1

/-- The disk as preprocessing leaves it. -/
def preprocessed (job : Job) (d : Disk) : Disk :=
  (job.preprocess d (job.targets d)).disk

/-- The run of a job whose project exists. -/
def started (job : Job) (tools : Tools) (clock : Nat → Float) (d : Disk) : Run where
  job
  directory := Path.absolute job.directory
  targets := job.targets d
  disk := job.preprocessed d
  tools
  clock
  deadline := job.deadline clock

/-- The ways in which a run comes to its end. -/
inductive Ends (job : Job) (clock : Nat → Float) (d : Disk) : Ended → Prop
  /-- Everything is written, and the time was not over at the last check. -/
  | done {s : Session} (found : ¬job.Homeless d)
      (inTime : (job.deadline clock).expired (clock (s.readings - 1)) = false) :
      Ends job clock d (finish (job.preprocessed d) s)
  /-- The time was over at a check. -/
  | timedOut {s : Session} {phase : String} {n : Nat} (found : ¬job.Homeless d)
      (known : phase ∈ Run.checkpoints) (later : 0 < n) (last : s.readings = n + 1)
      (expired : (job.deadline clock).expired (clock n) = true) :
      Ends job clock d (abandon (job.preprocessed d) s (.timedOut (job.deadline clock) phase))
  /-- There was no project. -/
  | homeless {s : Session} (missing : job.Homeless d) :
      Ends job clock d (abandon d s (.notLoaded (.missingDirectory job.directory)))

theorem preprocess_keepsDirectories (job : Job) (d : Disk) :
    d.KeepsDirectories (job.preprocessed d) := by
  unfold preprocessed preprocess
  split
  · exact .refl d
  · exact Preprocess.files_keepsDirectories _ d _

/-- A directory that was there before preprocessing is there when the project is loaded. -/
theorem directory_preprocessed {job : Job} {d : Disk} (found : ¬job.Homeless d) :
    ¬(Path.absolute job.directory = "" ∨
      (job.preprocessed d).isDirectory (Path.absolute job.directory) = false) := by
  simp only [Homeless, not_or, Bool.not_eq_false] at found
  have kept := Disk.isDirectory_absolute (job.preprocess_keepsDirectories d) found.2
  simp [kept, Path.absolute_ne_empty]

/-- What is made of the outcome of the phases. -/
def settle (d : Disk) : Except RunError Unit × Session → Ended
  | (.ok (), s) => finish d s
  | (.error e, s) => abandon d s e

theorem perform_ends {job : Job} {d : Disk} (found : ¬job.Homeless d) (tools : Tools)
    (clock : Nat → Float) : job.Ends clock d (job.perform tools clock d) := by
  let r := job.started tools clock d
  let s := job.session r.directory
    ((Target.paths d r.directory job.files).2 ++ (job.preprocess d r.targets).notices)
  have result : job.perform tools clock d = settle r.disk (r.phases.run s) := rfl
  have punctual := r.punctual_phases s
  rw [result]
  rcases ran : r.phases.run s with ⟨e | done, last⟩
  · rw [ran] at punctual
    cases punctual with
    | timedOut known later last expired => exact .timedOut found known later last expired
    | notLoaded missing => exact absurd missing (directory_preprocessed found)
  · exact .done found (r.phases_in_time ran)

theorem run_ends (job : Job) (tools : Tools) (clock : Nat → Float) (d : Disk) :
    job.givenFiles.Ends clock d (job.run tools clock d) := by
  by_cases missing : job.givenFiles.Homeless d
  · have met : job.givenFiles.directory = "" ∨ !d.isDirectory job.givenFiles.directory := by
      simpa [Homeless] using missing
    simp only [run, if_pos met]
    exact .homeless missing
  · have unmet : ¬(job.givenFiles.directory = "" ∨ !d.isDirectory job.givenFiles.directory) := by
      simpa [Homeless] using missing
    simp only [run, if_neg unmet]
    exact perform_ends missing tools clock

/-- Whatever the clock shows: a run that is out of time leaves the disk as preprocessing left it, a
run without a project leaves the disk as it was, and any other run writes its modules together, when
it was in time at the last check. No run keeps modules or names. -/
theorem run_atomic (job : Job) (tools : Tools) (clock : Nat → Float) (d : Disk) :
    let ended := job.run tools clock d
    let prepared := job.givenFiles.preprocessed d
    (∀ deadline phase, ended.error = some (.timedOut deadline phase) →
      ended.disk = prepared ∧ deadline = job.deadline clock ∧ phase ∈ Run.checkpoints ∧
        ∃ n, 0 < n ∧ ended.session.readings = n + 1 ∧ deadline.expired (clock n) = true) ∧
    (∀ error, ended.error = some (.notLoaded error) → job.Homeless d) ∧
    (job.Homeless d →
      ended.error = some (.notLoaded (.missingDirectory job.directory)) ∧ ended.disk = d) ∧
    (ended.error = none →
      (∃ project : Project, ended.disk = (project.save prepared).disk) ∧
        (job.deadline clock).expired (clock (ended.session.readings - 2)) = false) ∧
    ended.session.work.project.files = [] ∧ ended.session.surface.entries = [] := by
  intro ended prepared
  have ends : job.givenFiles.Ends clock d ended := job.run_ends tools clock d
  clear_value ended
  refine ⟨fun deadline phase stopped => ?_, fun error stopped => ?_, fun missing => ?_,
    fun finished => ?_, ?_⟩
  · cases ends with
    | done => cases stopped
    | timedOut found known later last expired =>
      obtain ⟨rfl, rfl⟩ : _ ∧ _ := by simpa [abandon] using stopped
      exact ⟨rfl, rfl, known, _, later, last, expired⟩
    | homeless missing => cases stopped
  · cases ends with
    | done => cases stopped
    | timedOut => cases stopped
    | homeless missing => exact missing
  · cases ends with
    | done found => exact absurd missing found
    | timedOut found => exact absurd missing found
    | homeless => exact ⟨rfl, rfl⟩
  · cases ends with
    | @done s found inTime => exact ⟨⟨s.work.project, rfl⟩, inTime⟩
    | timedOut => cases finished
    | homeless => cases finished
  · cases ends <;> exact ⟨rfl, rfl⟩

end ModuleRepair.Job
