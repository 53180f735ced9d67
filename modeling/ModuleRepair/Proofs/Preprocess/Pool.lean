import Mathlib.Logic.Relation
import ModuleRepair.Preprocess.Pool
import ModuleRepair.Proofs.Disk.Overlay
import ModuleRepair.Proofs.Path.Joined
import ModuleRepair.Proofs.Preprocess.Text

/-!
# The order of jobs does not matter

The jobs of a pool work on files of their own (`Disk.Apart`). However their steps are mixed, each
finds its file as it was and leaves it as it would alone: at every time, the disk is the one from
the start with the bytes that each job has put into its file (`Standing`, `standing_of_steps`). So
every way through ends with the same disk and the same answer, those of one job after the other
(`files_of_ended`), and there is no way on without end (`wellFounded_step`).
-/
namespace ModuleRepair

/-- No two of the paths lead to the same place. -/
def Disk.Apart (d : Disk) (paths : List String) : Prop :=
  paths.Pairwise fun a b => ∀ here, d.locate a = .ok here → d.locate b ≠ .ok here

namespace Preprocess

open Relation Pool

variable {rules : Rules} {d : Disk} {paths : List String} {path here : String} {workers : Nat}
  {s s' : Pool} {front back : List (String × Stage)} {stage : Stage} {new : ByteArray}

/-! ## What the job of a file comes to -/

/-- The new bytes of a file, where a step changes it. -/
def reworked? (rules : Rules) (d : Disk) (path : String) : Option ByteArray :=
  match d.read path with
  | .error _ => none
  | .ok bytes => (newBytes? rules bytes).join

/-- How the job of a file ends. -/
def outcome (rules : Rules) (d : Disk) (path : String) : Outcome :=
  match d.read path with
  | .error _ => .failed
  | .ok bytes =>
    match newBytes? rules bytes with
    | none => .failed
    | some none => .unchanged
    | some (some _) => .changed

/-- A job knows of its file what there was to know at the start. -/
def Stage.Fits (rules : Rules) (d : Disk) (path : String) : Stage → Prop
  | waiting | begun => True
  | ready new | opened new => reworked? rules d path = some new
  | ended result => result = outcome rules d path

/-- The bytes that a job has put into its file by now. -/
def Stage.held (rules : Rules) (d : Disk) (path : String) : Stage → Option ByteArray
  | opened _ => some .empty
  | ended .changed => reworked? rules d path
  | _ => none

theorem reworked?_eq_some_iff : reworked? rules d path = some new ↔
    ∃ bytes, d.read path = .ok bytes ∧ newBytes? rules bytes = some (some new) := by
  unfold reworked?
  cases d.read path <;> simp [Option.join_eq_some_iff]

theorem outcome_eq_changed_iff : outcome rules d path = .changed ↔
    ∃ new, reworked? rules d path = some new := by
  unfold outcome reworked?
  rcases d.read path with _ | bytes
  · simp
  · dsimp only
    rcases newBytes? rules bytes with _ | _ | _ <;> simp

/-- A file that is to be rewritten is there. -/
theorem file_of_reworked? (h : reworked? rules d path = some new) :
    ∃ here old, d.locate path = .ok here ∧ d.node? here = some (.file old) := by
  obtain ⟨bytes, read, -⟩ := reworked?_eq_some_iff.mp h
  obtain ⟨here, located, node⟩ := Disk.read_eq_ok.mp read
  exact ⟨here, bytes, located, node⟩

/-- A job that has begun finds out what is to be written, or ends at once. -/
theorem Stage.next_begun (rules : Rules) (path : String) (d : Disk) :
    begun.next rules path d =
      (((reworked? rules d path).map ready).getD (ended (outcome rules d path)), d) := by
  unfold next reworked? outcome
  rcases d.read path with _ | bytes
  · rfl
  · dsimp only
    rcases newBytes? rules bytes with _ | _ | _ <;> rfl

theorem Stage.Fits.file (h : stage.Fits rules d path) (held : stage.held rules d path = some new) :
    ∃ here old, d.locate path = .ok here ∧ d.node? here = some (.file old) := by
  cases stage with
  | waiting => cases held
  | begun => cases held
  | ready _ => cases held
  | opened _ => exact file_of_reworked? h
  | ended result =>
    cases result with
    | unchanged => cases held
    | changed => exact file_of_reworked? held
    | failed => cases held

/-- The bytes of places, with those that a job has put into its own. -/
def holding (d : Disk) (path : String) (own : Option ByteArray)
    (bytes : String → Option ByteArray) (here : String) : Option ByteArray :=
  if d.locate path = .ok here then own else bytes here

theorem holding_eq_update {own : Option ByteArray} {bytes : String → Option ByteArray}
    (located : d.locate path = .ok here) :
    holding d path own bytes = Function.update bytes here own := by
  funext other
  by_cases same : other = here
  · simp [holding, same, located]
  · simp [holding, located, same, Ne.symm same]

theorem holding_self {own : Option ByteArray} {bytes : String → Option ByteArray}
    (same : ∀ here, d.locate path = .ok here → bytes here = own) :
    holding d path own bytes = bytes := by
  funext here
  unfold holding
  split
  · next located => exact (same here located).symm
  · rfl

/-- **One step of a job**: whatever the other files hold, it finds its own as it was, and leaves the
others alone. -/
theorem Stage.next_spec {bytes : String → Option ByteArray} (files : d.FilesOnly bytes)
    (fits : stage.Fits rules d path)
    (own : ∀ here, d.locate path = .ok here → bytes here = stage.held rules d path) :
    (stage.next rules path (d.overlay bytes)).1.Fits rules d path ∧
      (stage.next rules path (d.overlay bytes)).2 = d.overlay
        (holding d path ((stage.next rules path (d.overlay bytes)).1.held rules d path) bytes) := by
  cases stage with
  | waiting => exact ⟨trivial, congrArg d.overlay (holding_self own).symm⟩
  | ended result => exact ⟨fits, congrArg d.overlay (holding_self own).symm⟩
  | begun =>
    have read : (d.overlay bytes).read path = d.read path := files.read_overlay_of_none own
    have known : begun.next rules path (d.overlay bytes) =
        (((reworked? rules d path).map ready).getD (ended (outcome rules d path)),
          d.overlay bytes) := by
      rw [next_begun, reworked?, outcome, read]
      rfl
    have quiet : holding d path none bytes = bytes := holding_self own
    rw [known]
    cases changes : reworked? rules d path with
    | some new => exact ⟨changes, congrArg d.overlay quiet.symm⟩
    | none =>
      refine ⟨rfl, congrArg d.overlay (Eq.symm ?_)⟩
      refine holding_self fun here located => (own here located).trans ?_
      cases result : outcome rules d path with
      | changed => simp [outcome_eq_changed_iff, changes] at result
      | _ => simp [held]
  | ready new =>
    obtain ⟨here, old, located, file⟩ := file_of_reworked? fits
    simp only [next, files.write_overlay located file, held, holding_eq_update located]
    exact ⟨fits, trivial⟩
  | opened new =>
    obtain ⟨here, old, located, file⟩ := file_of_reworked? fits
    have known : reworked? rules d path = some new := fits
    simp only [next, files.write_overlay located file, held, holding_eq_update located, known]
    exact ⟨(outcome_eq_changed_iff.mpr ⟨new, known⟩).symm, trivial⟩

/-! ## The jobs together -/

/-- The bytes that the jobs have put into their files by now. -/
def heldBy (rules : Rules) (d : Disk) (jobs : List (String × Stage)) (here : String) :
    Option ByteArray :=
  jobs.findSome? fun job => if d.locate job.1 = .ok here then job.2.held rules d job.1 else none

/-- How a pool stands that has started from a disk. -/
structure Standing (rules : Rules) (d : Disk) (paths : List String) (s : Pool) : Prop where
  paths : s.jobs.map (·.1) = paths
  fits : ∀ job ∈ s.jobs, job.2.Fits rules d job.1
  disk : s.disk = d.overlay (heldBy rules d s.jobs)
  notices : s.notices.Perm (s.jobs.flatMap fun job => job.2.notices job.1)

theorem heldBy_eq_none {jobs : List (String × Stage)}
    (away : ∀ job ∈ jobs, d.locate job.1 ≠ .ok here) : heldBy rules d jobs here = none :=
  List.findSome?_eq_none_iff.mpr fun job there => if_neg (away job there)

/-- The file of a job has the bytes that this job has put into it. -/
theorem heldBy_own (apart : d.Apart ((front ++ (path, stage) :: back).map (·.1)))
    (located : d.locate path = .ok here) :
    heldBy rules d (front ++ (path, stage) :: back) here = stage.held rules d path := by
  obtain ⟨-, behind, inFront⟩ := List.pairwise_append.mp (List.map_append ▸ apart)
  have before : heldBy rules d front here = none := heldBy_eq_none fun job there same =>
    inFront job.1 (List.mem_map_of_mem there) path (by simp) here same located
  have after : heldBy rules d back here = none := heldBy_eq_none fun job there =>
    (List.pairwise_cons.mp behind).1 job.1 (List.mem_map_of_mem there) here located
  unfold heldBy at before after ⊢
  rw [List.findSome?_append, before, List.findSome?_cons, Option.none_or]
  simp only [located, if_true, after]
  cases stage.held rules d path <;> rfl

theorem heldBy_other (stage' : Stage) (away : d.locate path ≠ .ok here) :
    heldBy rules d (front ++ (path, stage') :: back) here =
      heldBy rules d (front ++ (path, stage) :: back) here := by
  simp only [heldBy, List.findSome?_append, List.findSome?_cons, if_neg away]

theorem heldBy_next (stage' : Stage)
    (apart : d.Apart ((front ++ (path, stage) :: back).map (·.1))) :
    heldBy rules d (front ++ (path, stage') :: back) =
      holding d path (stage'.held rules d path)
        (heldBy rules d (front ++ (path, stage) :: back)) := by
  have apart' : d.Apart ((front ++ (path, stage') :: back).map (·.1)) := by simpa using apart
  funext here
  unfold holding
  split
  · next located => exact heldBy_own apart' located
  · next away => exact heldBy_other stage' away

theorem filesOnly_heldBy {jobs : List (String × Stage)}
    (fits : ∀ job ∈ jobs, job.2.Fits rules d job.1) : d.FilesOnly (heldBy rules d jobs) := by
  intro here new held
  obtain ⟨job, there, own⟩ := List.exists_of_findSome?_eq_some held
  rw [Option.ite_none_right_eq_some] at own
  obtain ⟨here', old, located, file⟩ := (fits job there).file own.2
  obtain rfl := Except.ok.inj (own.1.symm.trans located)
  exact ⟨old, file⟩

theorem standing_start (rules : Rules) (d : Disk) (paths : List String) :
    Standing rules d paths (start d paths) where
  paths := by simp [start, Function.comp_def]
  fits job there := by
    obtain ⟨path, -, rfl⟩ := List.mem_map.mp there
    exact trivial
  disk := by
    have nothing : heldBy rules d (start d paths).jobs = fun _ => none := by
      funext here
      refine List.findSome?_eq_none_iff.mpr fun job there => ?_
      obtain ⟨path, -, rfl⟩ := List.mem_map.mp there
      exact ite_self none
    rw [nothing, Disk.overlay_none]
    rfl
  notices := by
    have silent : (start d paths).jobs.flatMap (fun job => job.2.notices job.1) = [] := by
      refine List.flatMap_eq_nil_iff.mpr fun job there => ?_
      obtain ⟨path, -, rfl⟩ := List.mem_map.mp there
      rfl
    rw [silent]
    exact .refl []

theorem notices_of_mayGo (may : MayGo workers front stage back) : stage.notices path = [] := by
  rcases may with busy | ⟨waiting, -⟩
  · cases stage <;> first | rfl | cases busy
  · cases stage <;> first | rfl | cases waiting

/-- What every step keeps. -/
theorem Standing.step (h : Standing rules d paths s) (apart : d.Apart paths)
    (step : Step rules workers s s') : Standing rules d paths s' := by
  obtain ⟨sPaths, fits, disk, notices⟩ := h
  cases step with
  | @goesOn now front back path stage told may =>
    dsimp only at sPaths fits disk notices
    subst sPaths
    have files := filesOnly_heldBy fits
    have stageFits : stage.Fits rules d path := fits (path, stage) (by simp)
    rw [disk]
    obtain ⟨nextFits, after⟩ := Stage.next_spec files stageFits fun here => heldBy_own apart
    refine ⟨by simp, fun job there => ?_, ?_, ?_⟩
    · rcases List.mem_append.mp there with there | there
      · exact fits job (List.mem_append_left _ there)
      · rcases List.mem_cons.mp there with rfl | there
        · exact nextFits
        · exact fits job (List.mem_append_right _ (List.mem_cons_of_mem _ there))
    · exact after.trans (congrArg d.overlay (heldBy_next _ apart).symm)
    · simp only [List.flatMap_append, List.flatMap_cons, notices_of_mayGo may,
        List.nil_append] at notices ⊢
      refine (notices.append_right _).trans ?_
      rw [List.append_assoc]
      exact List.perm_append_comm.append_left _

/-- What every run keeps. -/
theorem standing_of_steps (apart : d.Apart paths)
    (steps : ReflTransGen (Step rules workers) (start d paths) s) : Standing rules d paths s := by
  induction steps with
  | refl => exact standing_start rules d paths
  | tail _ step ih => exact ih.step apart step

/-- When all jobs have ended, nothing is left open but the order of the reports. -/
theorem Standing.jobs_eq (h : Standing rules d paths s) (ended : s.Ended) :
    s.jobs = paths.map fun path => (path, .ended (outcome rules d path)) := by
  rw [← h.paths, List.map_map]
  conv => lhs; rw [← List.map_id s.jobs]
  refine List.map_congr_left fun job there => ?_
  obtain ⟨path, stage⟩ := job
  have fits := h.fits _ there
  have done := ended _ there
  cases stage with
  | ended result =>
    obtain rfl : result = outcome rules d path := fits
    rfl
  | _ => cases done

/-! ## One job after the other -/

theorem Pool.Step.to {now after : Disk} {stage' : Stage} {told : List Notice}
    (may : MayGo workers front stage back) (next : stage.next rules path now = (stage', after)) :
    Step rules workers ⟨now, front ++ (path, stage) :: back, told⟩
      ⟨after, front ++ (path, stage') :: back, told ++ stage'.notices path⟩ := by
  have step : Step rules workers ⟨now, front ++ (path, stage) :: back, told⟩ _ := .goesOn may
  rwa [next] at step

/-- A step that is not the last one reports nothing. -/
theorem Pool.Step.within {now after : Disk} {stage' : Stage} {told : List Notice}
    (may : MayGo workers front stage back) (next : stage.next rules path now = (stage', after))
    (silent : stage'.notices path = []) :
    Step rules workers ⟨now, front ++ (path, stage) :: back, told⟩
      ⟨after, front ++ (path, stage') :: back, told⟩ := by
  have step : Step rules workers ⟨now, front ++ (path, stage) :: back, told⟩ _ := .to may next
  rwa [silent, List.append_nil] at step

theorem busy_of_quiet {jobs : List (String × Stage)} (quiet : ∀ job ∈ jobs, job.2.isBusy = false) :
    busy jobs = 0 :=
  List.countP_eq_zero.mpr fun job there => by simp [quiet job there]

theorem Stage.isBusy_of_isEnded (h : stage.isEnded = true) : stage.isBusy = false := by
  cases stage <;> first | rfl | cases h

theorem Stage.isBusy_of_isWaiting (h : stage.isWaiting = true) : stage.isBusy = false := by
  cases stage <;> first | rfl | cases h

theorem Stage.isWaiting_of_isEnded (h : stage.isEnded = true) : stage.isWaiting = false := by
  cases stage <;> first | rfl | cases h

/-- The next job may begin when those in front of it have ended and those behind it wait. -/
theorem mayGo_next (free : 0 < workers) (ended : ∀ job ∈ front, job.2.isEnded = true)
    (waiting : ∀ job ∈ back, job.2.isWaiting = true) : MayGo workers front .waiting back := by
  refine .inr ⟨rfl, fun job there => Stage.isWaiting_of_isEnded (ended job there), ?_⟩
  rw [busy_of_quiet fun job there => ?_]
  · exact free
  · exact (List.mem_append.mp there).elim (fun there => Stage.isBusy_of_isEnded (ended job there))
      fun there => Stage.isBusy_of_isWaiting (waiting job there)

/-- Emptied first and then written, a file holds what it holds when it is written at once. -/
theorem write_emptied (h : reworked? rules d path = some new) : ∃ emptied filled,
    d.write path .empty = .ok emptied ∧ emptied.write path new = .ok filled ∧
      d.write path new = .ok filled := by
  obtain ⟨here, old, located, file⟩ := file_of_reworked? h
  have write (bytes : String → Option ByteArray) (new : ByteArray) (only : d.FilesOnly bytes) :=
    only.write_overlay located file new
  have emptied := write _ .empty (Disk.filesOnly_none d)
  have filled := write _ new ((Disk.filesOnly_none d).update file (some .empty))
  have atOnce := write _ new (Disk.filesOnly_none d)
  rw [Disk.overlay_none] at emptied atOnce
  rw [Function.update_idem] at filled
  exact ⟨_, _, emptied, filled, atOnce⟩

theorem file_of_reworked?_none {p : Progress} (h : reworked? rules p.disk path = none) :
    file rules p path = { p with
      notices := p.notices ++ (Stage.ended (outcome rules p.disk path)).notices path } := by
  unfold file outcome
  unfold reworked? at h
  rcases read : p.disk.read path with _ | bytes
  · rfl
  · rw [read] at h
    dsimp only at h ⊢
    rcases newBytes : newBytes? rules bytes with _ | _ | new
    · rfl
    · simp [Stage.notices]
    · simp [newBytes] at h

theorem file_of_reworked?_some {p : Progress} {after : Disk}
    (h : reworked? rules p.disk path = some new) (written : p.disk.write path new = .ok after) :
    file rules p path = { p with disk := after, changed := p.changed ++ [path] } := by
  obtain ⟨bytes, read, newBytes⟩ := reworked?_eq_some_iff.mp h
  simp only [file, read, newBytes, written]

/-- A job that runs alone does what preprocessing its file does. -/
theorem steps_file (rules : Rules) (free : 0 < workers) (p : Progress) (path : String)
    {front back : List (String × Stage)} (ended : ∀ job ∈ front, job.2.isEnded = true)
    (waiting : ∀ job ∈ back, job.2.isWaiting = true) :
    ReflTransGen (Step rules workers) ⟨p.disk, front ++ (path, .waiting) :: back, p.notices⟩
        ⟨(file rules p path).disk, front ++ (path, .ended (outcome rules p.disk path)) :: back,
          (file rules p path).notices⟩ ∧
      (file rules p path).changed =
        p.changed ++ if outcome rules p.disk path = .changed then [path] else [] := by
  have begins : Step rules workers ⟨p.disk, front ++ (path, .waiting) :: back, p.notices⟩
      ⟨p.disk, front ++ (path, .begun) :: back, p.notices⟩ :=
    .within (mayGo_next free ended waiting) rfl rfl
  have next := Stage.next_begun rules path p.disk
  cases changes : reworked? rules p.disk path with
  | none =>
    rw [changes] at next
    rw [file_of_reworked?_none changes]
    refine ⟨.head begins (.single (.to (.inl rfl) next)), ?_⟩
    have other : outcome rules p.disk path ≠ .changed := by simp [outcome_eq_changed_iff, changes]
    simp [other]
  | some new =>
    rw [changes] at next
    obtain ⟨emptied, filled, empty, fill, atOnce⟩ := write_emptied changes
    have result : outcome rules p.disk path = .changed := outcome_eq_changed_iff.mpr ⟨new, changes⟩
    rw [file_of_reworked?_some changes atOnce, result]
    have reads : Step rules workers ⟨p.disk, front ++ (path, .begun) :: back, p.notices⟩
        ⟨p.disk, front ++ (path, .ready new) :: back, p.notices⟩ := .within (.inl rfl) next rfl
    have opens : Step rules workers ⟨p.disk, front ++ (path, .ready new) :: back, p.notices⟩
        ⟨emptied, front ++ (path, .opened new) :: back, p.notices⟩ :=
      .within (.inl rfl) (by simp only [Stage.next, empty]) rfl
    have writes : Step rules workers ⟨emptied, front ++ (path, .opened new) :: back, p.notices⟩
        ⟨filled, front ++ (path, .ended .changed) :: back, p.notices⟩ :=
      .within (.inl rfl) (by simp only [Stage.next, fill]) rfl
    exact ⟨.head begins (.head reads (.head opens (.single writes))), by simp⟩

theorem changed_concat (front : List (String × Stage)) (path : String) (result : Outcome) :
    Pool.changed ⟨d, front ++ [(path, .ended result)], []⟩ =
      Pool.changed ⟨d, front, []⟩ ++ if result = .changed then [path] else [] := by
  cases result <;> simp [Pool.changed, List.filter_append, Stage.isChanged]

/-- One after the other, the jobs do what preprocessing the files does. -/
theorem steps_files (rules : Rules) (free : 0 < workers) (rest : List String) (p : Progress)
    (front : List (String × Stage)) (ended : ∀ job ∈ front, job.2.isEnded = true)
    (changed : p.changed = Pool.changed ⟨d, front, []⟩) :
    ∃ s, ReflTransGen (Step rules workers) ⟨p.disk, front ++ rest.map (·, .waiting), p.notices⟩ s ∧
      s.Ended ∧ s.disk = (rest.foldl (file rules) p).disk ∧
      s.changed = (rest.foldl (file rules) p).changed ∧
      s.notices = (rest.foldl (file rules) p).notices := by
  induction rest generalizing front p with
  | nil => exact ⟨⟨p.disk, front, p.notices⟩, by simpa using .refl, ended, rfl, changed.symm, rfl⟩
  | cons path rest ih =>
    have waiting : ∀ job ∈ rest.map fun path => (path, Stage.waiting),
        job.2.isWaiting = true := by
      intro job there
      obtain ⟨path, -, rfl⟩ := List.mem_map.mp there
      rfl
    obtain ⟨steps, more⟩ := steps_file rules free p path ended waiting
    obtain ⟨s, others, result⟩ := ih (file rules p path)
      (front ++ [(path, .ended (outcome rules p.disk path))])
      (List.forall_mem_append.mpr ⟨ended, by simp [Stage.isEnded]⟩)
      (by rw [more, changed, changed_concat])
    rw [List.append_assoc] at others
    exact ⟨s, steps.trans others, result⟩

/-- Preprocessing files one after the other is one of the ways through. -/
theorem steps_start (rules : Rules) (free : 0 < workers) (d : Disk) (paths : List String) :
    ∃ s, ReflTransGen (Step rules workers) (start d paths) s ∧ s.Ended ∧
      s.disk = (files rules d paths).disk ∧ s.changed = (files rules d paths).changed ∧
      s.notices = (files rules d paths).notices :=
  steps_files (d := d) rules free paths { disk := d } [] (by simp) rfl

/-! ## Every run ends -/

/-- The number of steps that a job has left at most. -/
def Stage.left : Stage → Nat
  | waiting => 4
  | begun => 3
  | ready _ => 2
  | opened _ => 1
  | ended _ => 0

theorem Stage.left_next (rules : Rules) (path : String) (now : Disk)
    (open' : stage.isEnded = false) :
    (stage.next rules path now).1.left < stage.left := by
  cases stage with
  | waiting => exact Nat.lt_succ_self 3
  | begun =>
    rw [next_begun]
    cases reworked? rules now path <;> simp [left]
  | ready new =>
    unfold next
    dsimp only
    split <;> simp [left]
  | opened new =>
    unfold next
    dsimp only
    split <;> simp [left]
  | ended result => cases open'

theorem isEnded_of_mayGo (may : MayGo workers front stage back) : stage.isEnded = false := by
  rcases may with busy | ⟨waiting, -⟩
  · cases stage <;> first | rfl | cases busy
  · cases stage <;> first | rfl | cases waiting

/-- There is no way on without end. -/
theorem wellFounded_step (rules : Rules) (workers : Nat) :
    WellFounded fun s' s => Step rules workers s s' := by
  refine Subrelation.wf ?_ (measure fun s : Pool => (s.jobs.map fun job => job.2.left).sum).wf
  intro s' s step
  cases step with
  | @goesOn now front back path stage told may =>
    have fewer := Stage.left_next rules path now (isEnded_of_mayGo may)
    change (List.map (fun job : String × Stage => job.2.left) _).sum <
      (List.map (fun job : String × Stage => job.2.left) _).sum
    simp only [List.map_append, List.map_cons, List.sum_append, List.sum_cons]
    exact Nat.add_lt_add_left (Nat.add_lt_add_right fewer _) _

/-- As long as not all jobs have ended, one of them can go on. -/
theorem exists_step (rules : Rules) (free : 0 < workers) (running : ¬s.Ended) :
    ∃ s', Step rules workers s s' := by
  obtain ⟨now, jobs, told⟩ := s
  suffices ∃ front path stage back, jobs = front ++ (path, stage) :: back ∧
      MayGo workers front stage back by
    obtain ⟨front, path, stage, back, rfl, may⟩ := this
    exact ⟨_, .goesOn may⟩
  by_cases busy : ∃ job ∈ jobs, job.2.isBusy = true
  · obtain ⟨⟨path, stage⟩, there, busy⟩ := busy
    obtain ⟨front, back, split⟩ := List.append_of_mem there
    exact ⟨front, path, stage, back, split, .inl busy⟩
  · have quiet : ∀ job ∈ jobs, job.2.isBusy = false := by simpa using busy
    have open' : ∃ job ∈ jobs, job.2.isWaiting = true := by
      simp only [Pool.Ended, not_forall] at running
      obtain ⟨job, there, other⟩ := running
      refine ⟨job, there, ?_⟩
      have idle := quiet job there
      cases stage : job.2 <;> simp_all [Stage.isEnded, Stage.isBusy, Stage.isWaiting]
    obtain ⟨first, found⟩ := Option.isSome_iff_exists.mp
      ((List.find?_isSome (p := fun job : String × Stage => job.2.isWaiting)).mpr open')
    obtain ⟨waits, front, back, split, before⟩ := List.find?_eq_some_iff_append.mp found
    refine ⟨front, first.1, first.2, back, split, .inr ⟨waits, by simpa using before, ?_⟩⟩
    rw [busy_of_quiet fun job there => quiet job ?_]
    · exact free
    · rw [split]
      exact (List.mem_append.mp there).elim (List.mem_append_left _)
        fun there => List.mem_append_right _ (List.mem_cons_of_mem _ there)

/-- There are never more jobs under way than workers. -/
theorem busy_step (few : busy s.jobs ≤ workers) (step : Step rules workers s s') :
    busy s'.jobs ≤ workers := by
  cases step with
  | @goesOn now front back path stage told may =>
    generalize (stage.next rules path now).1 = stage'
    simp only [busy, List.countP_append, List.countP_cons] at few ⊢
    rcases may with under | ⟨-, -, free⟩
    · rw [if_pos under] at few
      split <;> omega
    · simp only [busy, List.countP_append] at free
      split <;> omega

theorem busy_of_steps (steps : ReflTransGen (Step rules workers) (start d paths) s) :
    busy s.jobs ≤ workers := by
  induction steps with
  | refl =>
    refine Nat.le_trans (Nat.le_of_eq (busy_of_quiet fun job there => ?_)) (Nat.zero_le _)
    obtain ⟨path, -, rfl⟩ := List.mem_map.mp there
    rfl
  | tail _ step ih => exact busy_step ih step

/-! ## The result -/

/-- Whether preprocessing changes the bytes of a file: they are text, and some step applies. -/
def isReworked (rules : Rules) (bytes : ByteArray) : Bool :=
  match Text.decode bytes with
  | .error _ => false
  | .ok t => (text rules t.toList).2 ≠ []

/-- The bytes of a file after preprocessing. -/
def bytesAfter (rules : Rules) (bytes : ByteArray) : ByteArray :=
  match Text.decode bytes with
  | .error _ => bytes
  | .ok t =>
    if (text rules t.toList).2 = [] then bytes else (String.ofList (text rules t.toList).1).toUTF8

theorem newBytes?_join (rules : Rules) (bytes : ByteArray) : (newBytes? rules bytes).join =
    if isReworked rules bytes then some (bytesAfter rules bytes) else none := by
  unfold newBytes? isReworked bytesAfter
  cases Text.decode bytes with
  | error fault => rfl
  | ok t =>
    dsimp only
    by_cases none : (text rules t.toList).2 = []
    · simp [none]
    · simp [none, List.isEmpty_iff]

theorem bytesAfter_of_not {bytes : ByteArray} (h : isReworked rules bytes = false) :
    bytesAfter rules bytes = bytes := by
  unfold isReworked at h
  unfold bytesAfter
  cases decoded : Text.decode bytes with
  | error fault => rfl
  | ok t =>
    rw [decoded] at h
    exact if_pos (by simpa using h)

/-- Whether the file of a path is rewritten. -/
def isRewritten (rules : Rules) (d : Disk) (path : String) : Bool :=
  match d.read path with
  | .error _ => false
  | .ok bytes => isReworked rules bytes

theorem reworked?_eq (rules : Rules) (d : Disk) (path : String) : reworked? rules d path =
    match d.read path with
    | .error _ => none
    | .ok bytes => if isReworked rules bytes then some (bytesAfter rules bytes) else none := by
  unfold reworked?
  cases d.read path with
  | error fault => rfl
  | ok bytes => exact newBytes?_join rules bytes

theorem outcome_eq_changed_iff_isRewritten :
    outcome rules d path = .changed ↔ isRewritten rules d path = true := by
  rw [outcome_eq_changed_iff, reworked?_eq, isRewritten]
  cases d.read path with
  | error fault => simp
  | ok bytes => cases isReworked rules bytes <;> simp

theorem Stage.held_ended (rules : Rules) (d : Disk) (path : String) :
    (ended (outcome rules d path)).held rules d path = reworked? rules d path := by
  cases changes : reworked? rules d path with
  | some new => rw [outcome_eq_changed_iff.mpr ⟨new, changes⟩, held, changes]
  | none =>
    cases result : outcome rules d path with
    | changed => simp [outcome_eq_changed_iff, changes] at result
    | _ => rfl

/-- Every listed file has the bytes that preprocessing makes of those it had. -/
theorem Standing.read_eq (h : Standing rules d paths s) (apart : d.Apart paths) (ended : s.Ended)
    (there : path ∈ paths) : s.disk.read path = (d.read path).map (bytesAfter rules) := by
  have files := filesOnly_heldBy h.fits
  have job : (path, .ended (outcome rules d path)) ∈ s.jobs := by
    rw [h.jobs_eq ended]
    exact List.mem_map_of_mem there
  obtain ⟨front, back, split⟩ := List.append_of_mem job
  rw [h.disk]
  cases located : d.locate path with
  | error fault =>
    have unread : d.read path = .error fault := by
      simp only [Disk.read, located, bind, Except.bind]
    rw [files.read_overlay_of_error located, unread]
    rfl
  | ok here =>
    have own : heldBy rules d s.jobs here = reworked? rules d path := by
      rw [split, heldBy_own (by rw [← split, h.paths]; exact apart) located, Stage.held_ended]
    rw [files.read_overlay located, own, reworked?_eq]
    cases d.read path with
    | error fault => rfl
    | ok bytes =>
      dsimp only
      cases reworks : isReworked rules bytes with
      | true => rfl
      | false =>
        simp only [Except.map, bytesAfter_of_not reworks]
        rfl

/-- Every other place is as it was. -/
theorem Standing.node?_eq (h : Standing rules d paths s)
    (away : ∀ path ∈ paths, d.locate path ≠ .ok here) : s.disk.node? here = d.node? here := by
  have nothing : heldBy rules d s.jobs here = none := by
    refine heldBy_eq_none fun job there => away job.1 ?_
    rw [← h.paths]
    exact List.mem_map_of_mem there
  rw [h.disk, (filesOnly_heldBy h.fits).node?_overlay, nothing]
  rfl

/-- The rewritten paths are answered in the order of the files. -/
theorem Standing.changed_eq (h : Standing rules d paths s) (ended : s.Ended) :
    s.changed = paths.filter (isRewritten rules d) := by
  have same : ∀ path ∈ paths, (Stage.ended (outcome rules d path)).isChanged =
      isRewritten rules d path := by
    intro path _
    rw [Bool.eq_iff_iff, ← outcome_eq_changed_iff_isRewritten]
    cases outcome rules d path <;> simp [Stage.isChanged]
  rw [Pool.changed, h.jobs_eq ended, List.filter_map, List.map_map, ← List.filter_congr same]
  exact List.map_id _

theorem Standing.notices_perm (h : Standing rules d paths s) (ended : s.Ended) :
    s.notices.Perm (paths.flatMap fun path =>
      (Stage.ended (outcome rules d path)).notices path) := by
  have all := h.notices
  rwa [h.jobs_eq ended, List.flatMap_map] at all

theorem Standing.disk_eq (h : Standing rules d paths s) (ended : s.Ended) :
    s.disk = d.overlay (heldBy rules d
      (paths.map fun path => (path, .ended (outcome rules d path)))) := by
  rw [h.disk, h.jobs_eq ended]

/-- **The order of the jobs does not matter.** -/
theorem pool_settles (rules : Rules) (most : Int) (d : Disk) (paths : List String)
    (apart : d.Apart paths) :
    WellFounded (fun s' s => Step rules (workersFor most paths) s s') ∧
      ∀ s, ReflTransGen (Step rules (workersFor most paths)) (start d paths) s →
        busy s.jobs ≤ workersFor most paths ∧
        (¬s.Ended → ∃ s', Step rules (workersFor most paths) s s') ∧
        (s.Ended →
          s.disk = (files rules d paths).disk ∧ s.changed = (files rules d paths).changed ∧
          s.notices.Perm (files rules d paths).notices ∧
          (∀ path ∈ paths, s.disk.read path = (d.read path).map (bytesAfter rules)) ∧
          (∀ here, (∀ path ∈ paths, d.locate path ≠ .ok here) →
            s.disk.node? here = d.node? here) ∧
          s.changed = paths.filter (isRewritten rules d)) := by
  refine ⟨wellFounded_step rules _, fun s steps => ⟨busy_of_steps steps, fun running => ?_,
    fun ended => ?_⟩⟩
  · have some : paths ≠ [] := by
      rintro rfl
      have standing := standing_of_steps apart steps
      exact running (by simp [Pool.Ended, List.map_eq_nil_iff.mp standing.paths])
    have free : 0 < workersFor most paths := by
      have files := List.length_pos_iff.mpr some
      unfold workersFor
      omega
    exact exists_step rules free running
  · have standing := standing_of_steps apart steps
    obtain ⟨s', steps', ended', disk, changed, notices⟩ :=
      steps_start rules Nat.one_pos d paths
    have standing' := standing_of_steps apart steps'
    refine ⟨?_, ?_, ?_, fun path => standing.read_eq apart ended,
      fun here => standing.node?_eq, standing.changed_eq ended⟩
    · rw [← disk, standing.disk_eq ended, standing'.disk_eq ended']
    · rw [← changed, standing.changed_eq ended, standing'.changed_eq ended']
    · rw [← notices]
      exact (standing.notices_perm ended).trans (standing'.notices_perm ended').symm

/-- Different paths in normal form lead to different places as long as they begin with equally many
slashes. -/
theorem apart_of_nodup (d : Disk) (slashes : Nat)
    (normal : ∀ path ∈ paths, Path.absolute path = path ∧ Path.leading path = slashes)
    (distinct : paths.Nodup) : d.Apart paths := by
  refine List.Pairwise.imp_of_mem (fun {a b} ha hb different here locatedA locatedB => ?_) distinct
  obtain ⟨normalA, slashesA⟩ := normal a ha
  obtain ⟨normalB, slashesB⟩ := normal b hb
  have places : Path.ofNames (Path.names a) = Path.ofNames (Path.names b) :=
    (Disk.locate_ok locatedA).1.symm.trans (Disk.locate_ok locatedB).1
  have same := congrArg Path.names places
  rw [Path.names_ofNames (Path.isName_of_mem_names a),
    Path.names_ofNames (Path.isName_of_mem_names b)] at same
  refine different ?_
  rw [← normalA, ← normalB]
  exact Path.absolute_eq_iff.mpr ⟨slashesA.trans slashesB.symm, same⟩

/-- A file with fences inside of fences, one that is no text, and one that is fine. -/
def mixedDisk : Disk where
  nodes := [("/proj", .directory), ("/proj/a.ts", .file "```\n```\nx\n```\n```".toUTF8),
    ("/proj/b.ts", .file ⟨#[255]⟩), ("/proj/c.ts", .file "export {};".toUTF8)]

/-- These files, and a path where there is nothing. -/
def mixedPaths : List String := ["/proj/c.ts", "/proj/none.ts", "/proj/b.ts", "/proj/a.ts"]

theorem mixedDisk_settles :
    mixedDisk.Apart mixedPaths ∧
      ∀ s, ReflTransGen (Step standardRules (workersFor 3 mixedPaths))
          (start mixedDisk mixedPaths) s → s.Ended →
        s.changed = ["/proj/a.ts"] ∧ s.disk = (files standardRules mixedDisk mixedPaths).disk ∧
        s.disk.read "/proj/a.ts" = .ok "```\nx\n```".toUTF8 ∧
        s.disk.read "/proj/b.ts" = .ok ⟨#[255]⟩ ∧
        s.disk.read "/proj/none.ts" = .error .missing := by
  have apart : mixedDisk.Apart mixedPaths :=
    apart_of_nodup mixedDisk 1 (by decide +kernel) (by decide)
  refine ⟨apart, fun s steps ended => ?_⟩
  obtain ⟨disk, -, -, each, -, changed⟩ :=
    ((pool_settles standardRules 3 mixedDisk mixedPaths apart).2 s steps).2.2 ended
  have first : isRewritten standardRules mixedDisk "/proj/a.ts" = true := by decide +kernel
  have rest : ∀ path ∈ ["/proj/c.ts", "/proj/none.ts", "/proj/b.ts"],
      isRewritten standardRules mixedDisk path = false := by decide +kernel
  refine ⟨changed.trans ?_, disk, ?_, ?_, ?_⟩
  · simp_all [mixedPaths]
  · exact (each "/proj/a.ts" (by decide)).trans (by decide +kernel)
  · exact (each "/proj/b.ts" (by decide)).trans (by decide +kernel)
  · exact (each "/proj/none.ts" (by decide)).trans (by decide +kernel)

/-- Two paths in normal form may lead to one file, which is then preprocessed twice. -/
theorem spellings_preprocessed_twice :
    ["/proj/a.ts", "//proj/a.ts"].Nodup ∧
      (∀ path ∈ ["/proj/a.ts", "//proj/a.ts"], Path.normalize path = path) ∧
      ∃ s, ReflTransGen (Step standardRules (workersFor 1 ["/proj/a.ts", "//proj/a.ts"]))
          (start mixedDisk ["/proj/a.ts", "//proj/a.ts"]) s ∧ s.Ended ∧
        s.disk.read "/proj/a.ts" ≠
          (mixedDisk.read "/proj/a.ts").map (bytesAfter standardRules) := by
  refine ⟨by decide, by decide +kernel, ?_⟩
  have free : 0 < workersFor 1 ["/proj/a.ts", "//proj/a.ts"] := by decide
  obtain ⟨s, steps, ended, disk, -⟩ :=
    steps_start standardRules free mixedDisk ["/proj/a.ts", "//proj/a.ts"]
  refine ⟨s, steps, ended, ?_⟩
  rw [disk]
  decide +kernel

end Preprocess

end ModuleRepair
