import ModuleRepair.Proofs.Run.Processed

/-!
# Files that are given twice

A file that is given twice is a target twice: preprocessing goes over it twice, and so does the
repair, which counts it twice. The project that is loaded is the same (`Run.phases_named`). So the
results are those of giving each file once exactly if no file is given twice that is repaired
(`Job.run_once`).
-/
namespace ModuleRepair

open ModuleRepair.Path ModuleRepair.Script

/-- Two ends of a run with the same disk, actions and summary. -/
structure Ended.SameResult (e e' : Ended) : Prop where
  disk_eq : e'.disk = e.disk
  actions_eq : e'.session.actions = e.session.actions
  stats_eq : e'.session.work.stats = e.session.work.stats

namespace Ended.SameResult

variable {e e' e'' : Ended}

theorem symm (h : e.SameResult e') : e'.SameResult e where
  disk_eq := h.disk_eq.symm
  actions_eq := h.actions_eq.symm
  stats_eq := h.stats_eq.symm

theorem trans (h : e.SameResult e') (h' : e'.SameResult e'') : e.SameResult e'' where
  disk_eq := h'.disk_eq.trans h.disk_eq
  actions_eq := h'.actions_eq.trans h.actions_eq
  stats_eq := h'.stats_eq.trans h.stats_eq

end Ended.SameResult

theorem Phase.Returns.andThen {α β : Type} {phase : Phase α} {next : α → Phase β} {a : α} {b : β}
    {s t u : Session} (h : phase.Returns s a t) (h' : (next a).Returns t b u) :
    (phase >>= next).Returns s b u := by
  unfold Returns at h ⊢
  rw [Phase.run_bind, h]
  exact h'

namespace Run

variable {r : Run} {files targets : List String} {diagnostics : DiagnosticsByFile} {s t : Session}

/-- The run with other files given. -/
def named (r : Run) (files targets : List String) : Run :=
  { r with job := { r.job with files }, targets }

/-- The other files are the same targets, however often. -/
structure SameTargets (r : Run) (files targets : List String) : Prop where
  given : r.job.files ≠ []
  given' : files ≠ []
  supported : ∀ path ∈ r.targets, absolute path = path ∧ isSupported path = true
  mem_iff : ∀ path, path ∈ targets ↔ path ∈ r.targets
  /-- Those that are repaired come equally often, in the same order. -/
  repaired : (targets.filter fun path => r.disk.holdsText path && Target.mayChange path) =
    r.targets.filter fun path => r.disk.holdsText path && Target.mayChange path

theorem loadProject_named (h : r.SameTargets files targets) :
    (r.named files targets).loadProject = r.loadProject := by
  have some : r.job.files.isEmpty = false := List.isEmpty_eq_false_iff.mpr h.given
  have some' : files.isEmpty = false := List.isEmpty_eq_false_iff.mpr h.given'
  unfold loadProject named
  simp only [some, some', Bool.false_eq_true, if_false, settings, Project.load_congr h.mem_iff]

theorem fixDiagnostics_named {touched : List String}
    (same : Target.modules s.work.project files targets =
      Target.modules s.work.project r.job.files r.targets)
    (h : (r.fixDiagnostics diagnostics).Returns s touched t) :
    ((r.named files targets).fixDiagnostics diagnostics).Returns s touched t := by
  rw [fixDiagnostics_eq] at h ⊢
  obtain ⟨s₀, s₁, here, h⟩ := h.bind
  cases here
  rw [← same] at h
  exact .andThen rfl h

theorem repair_named {loaded : Project} {notices : List Notice} {touched : List String}
    (load : Project.load r.disk r.directory r.settings.sourceRoot r.settings.mark r.targets
      r.indexMode = .ok (loaded, notices))
    (same : r.SameTargets files targets) (project : s.work.project = loaded)
    (h : (r.repair diagnostics).Returns s touched t) :
    ((r.named files targets).repair diagnostics).Returns s touched t := by
  obtain ⟨_, s₁, built, h⟩ := h.bind
  obtain ⟨_, s₂, checked, h⟩ := h.bind
  obtain ⟨normalized, s₃, converted, h⟩ := h.bind
  obtain ⟨fixed, s₄, repaired, h⟩ := h.bind
  have agrees := (buildSurface_agrees built).trans (check_agrees checked)
  have readable := Project.readable_load load
  rw [← project, ← agrees.project_eq] at readable
  have kept (path : String) : (s₃.work.project.find? path).isSome = (loaded.find? path).isSome := by
    rw [normalizeExports_keeps converted readable, agrees.project_eq, project]
  have modules : Target.modules s₃.work.project files targets =
      Target.modules s₃.work.project r.job.files r.targets := by
    rw [Target.modules_of_load load kept same.given fun path there =>
        ⟨there, same.supported path there⟩,
      Target.modules_of_load load kept same.given' fun path there =>
        ⟨(same.mem_iff path).mp there, same.supported path ((same.mem_iff path).mp there)⟩,
      same.repaired]
  exact .andThen built <| .andThen checked <| .andThen converted <|
    .andThen (fixDiagnostics_named modules repaired) h

/-- A run does the same when the same targets are given in another way. -/
theorem phases_named (same : r.SameTargets files targets) {a : Unit}
    (h : r.phases.Returns s a t) : (r.named files targets).phases.Returns s a t := by
  obtain ⟨_, s₁, checked₁, h⟩ := h.bind
  obtain ⟨diagnostics, s₂, collected, h⟩ := h.bind
  obtain ⟨_, s₃, checked₂, h⟩ := h.bind
  obtain ⟨_, s₄, loading, h⟩ := h.bind
  obtain ⟨_, s₅, checked₃, h⟩ := h.bind
  obtain ⟨touched, s₆, repaired, h⟩ := h.bind
  obtain ⟨loaded, notices, load, project, -, -⟩ := loadProject_loads loading
  have project : s₅.work.project = loaded := (check_agrees checked₃).project_eq.trans project
  rw [← loadProject_named same] at loading
  exact .andThen checked₁ <| .andThen collected <| .andThen checked₂ <| .andThen loading <|
    .andThen checked₃ <| .andThen (repair_named load same project repaired) h

end Run

/-! ## Jobs -/

namespace Job

variable {job : Job} {d : Disk} {tools : Tools} {clock : Nat → Float}

/-- The path that a given file stands for. -/
def pathOf (job : Job) (file : String) : String :=
  normalize (join (absolute job.directory) file)

/-- The job with each file given only where it is given first. Files that stand for the same path
are the same. -/
def once (job : Job) : Job :=
  { job with
    files := job.givenFiles.files.eraseDupsBy fun a b => job.pathOf a == job.pathOf b }

/-- What preprocessing looks for. -/
def rules (job : Job) : Preprocess.Rules :=
  ⟨job.settings.clientModules, job.settings.clientDirective⟩

/-- Whether preprocessing is skipped, or settles the file of a path in one pass. -/
def Settles (job : Job) (d : Disk) (path : String) : Prop :=
  job.settings.skipPreprocessing = true ∨ ∀ bytes, d.read path = .ok bytes →
    Preprocess.bytesAfter job.rules (Preprocess.bytesAfter job.rules bytes) =
      Preprocess.bytesAfter job.rules bytes

/-- The targets that are repaired: they hold a text and may be changed. -/
def repaired (job : Job) (d : Disk) : List String :=
  (job.targets d).filter fun path => d.holdsText path && Target.mayChange path

theorem givenFiles_once (job : Job) : job.once.givenFiles = job.once := by
  have some : ∀ file ∈ job.once.files, decide (file ≠ "") = true := fun file there =>
    (List.mem_filter.mp ((eraseDupsBy_sublist _ _).subset there)).2
  rw [givenFiles, List.filter_eq_self.mpr some]

theorem targets_eq (given : job.files ≠ []) (d : Disk) : job.targets d =
    (job.files.map job.pathOf).filter fun path => d.isFile path && isSupported path := by
  have some : job.files.isEmpty = false := List.isEmpty_eq_false_iff.mpr given
  have one (file : String) : (Target.given d (absolute job.directory) file).1 =
      Option.guard (fun path => d.isFile path && isSupported path) (job.pathOf file) := by
    simp only [Target.given, pathOf, Option.guard]
    split
    · next missing => simp_all
    · next there =>
      split <;> simp_all
  simp only [targets, Target.paths, some, Bool.false_eq_true, if_false, List.filterMap_map,
    Function.comp_def, one]
  rw [← List.filterMap_eq_filter, List.filterMap_map, Function.comp_def]

theorem once_files_ne_nil (given : job.givenFiles.files ≠ []) : job.once.files ≠ [] := by
  obtain ⟨file, files, cons⟩ := List.exists_cons_of_ne_nil given
  simp only [once, cons, List.eraseDupsBy_cons]
  exact List.cons_ne_nil _ _

theorem once_of_none (none : job.givenFiles.files = []) : job.once = job.givenFiles := by
  simp only [once, none, List.eraseDupsBy_nil]
  rw [← none]
  rfl

theorem nodup_targets_of_none (none : job.files = []) (d : Disk) : (job.targets d).Nodup := by
  simp only [targets, Target.paths, none, List.isEmpty_nil, if_true, Target.all]
  exact ((pairwise_collectFiles d _ _).imp fun before => String.ne_of_lt before).filter _

/-- Giving each file once makes each target one only once. -/
theorem targets_once (job : Job) (d : Disk) :
    job.once.targets d = (job.givenFiles.targets d).eraseDups := by
  by_cases given : job.givenFiles.files = []
  · rw [once_of_none given, eraseDups_of_nodup (nodup_targets_of_none given d)]
  · rw [targets_eq given, targets_eq (once_files_ne_nil given), filter_eraseDups,
      ← map_eraseDupsBy job.givenFiles.pathOf job.givenFiles.files]
    rfl

theorem repaired_once (job : Job) (d : Disk) :
    job.once.repaired d = (job.givenFiles.repaired d).eraseDups := by
  rw [repaired, targets_once, ← filter_eraseDups]
  rfl

/-! ## Runs -/

/-- A run in time comes to its end, and what was reported first makes no difference to what it
leaves. -/
theorem run_returns (found : ¬job.givenFiles.Homeless d) (tools : Tools)
    (inTime : ∀ n, (job.givenFiles.deadline clock).expired (clock n) = false) :
    ∃ t, (job.givenFiles.started tools clock d).phases.Returns
        (job.session (absolute job.directory) []) () t ∧
      (job.run tools clock d).error = none ∧
      (finish (job.givenFiles.preprocessed d) t).SameResult (job.run tools clock d) := by
  have completes := run_completes found tools inTime
  have unmet : ¬(job.givenFiles.directory = "" ∨ !d.isDirectory job.givenFiles.directory) := by
    simpa [Homeless] using found
  let r := job.givenFiles.started tools clock d
  let told := (Target.paths d r.directory job.givenFiles.files).2 ++
    (job.givenFiles.preprocess d r.targets).notices
  have start : job.givenFiles.session r.directory told =
      (job.session (absolute job.directory) []).beside told := by
    simp only [session, Session.beside, List.append_nil]
    rfl
  have result : job.run tools clock d =
      settle r.disk (r.phases.run (job.givenFiles.session r.directory told)) := by
    simp only [run, if_neg unmet]
    rfl
  rw [start, r.oblivious_phases] at result
  rw [result] at completes ⊢
  cases ran : r.phases.run (job.session (absolute job.directory) []) with
  | mk outcome t =>
    rw [ran] at completes
    cases outcome with
    | error e => cases completes
    | ok done => exact ⟨t, ran, rfl, rfl, rfl, rfl⟩

theorem holdsText_preprocessed (job : Job) (d : Disk) (path : String) :
    (job.preprocessed d).holdsText path = d.holdsText path := by
  unfold preprocessed preprocess
  split
  · rfl
  · exact Preprocess.files_holdsText _ d _ path

/-- Files that are given again are not preprocessed anew, where one pass settles them. -/
theorem preprocessed_once (settles : ∀ path ∈ job.givenFiles.targets d,
      2 ≤ (job.givenFiles.targets d).count path → job.Settles d path) :
    job.once.preprocessed d = job.givenFiles.preprocessed d := by
  unfold preprocessed preprocess
  rw [targets_once]
  change (if job.settings.skipPreprocessing then _ else Preprocess.files job.rules d _).disk =
    (if job.settings.skipPreprocessing then _ else Preprocess.files job.rules d _).disk
  split
  · rfl
  · next skips =>
    exact Preprocess.files_disk_eraseDups fun path there twice =>
      (settles path there twice).resolve_left skips

/-- Where no file is repaired twice, the run is that with each file given once. -/
theorem sameTargets_once (given : job.givenFiles.files ≠ [])
    (nodup : (job.givenFiles.repaired d).Nodup) (tools : Tools) (clock : Nat → Float) :
    (job.givenFiles.started tools clock d).SameTargets job.once.files (job.once.targets d) where
  given := given
  given' := once_files_ne_nil given
  supported path there := ⟨(mem_targets there).1, (mem_targets there).2.1⟩
  mem_iff path := by
    rw [targets_once, List.mem_eraseDups]
    rfl
  repaired := by
    simp only [started, holdsText_preprocessed]
    rw [targets_once, ← filter_eraseDups]
    exact eraseDups_of_nodup nodup

/-- A run in time counts the given files that it repairs, as often as they are given. -/
theorem run_processed (found : ¬job.givenFiles.Homeless d) (tools : Tools)
    (inTime : ∀ n, (job.givenFiles.deadline clock).expired (clock n) = false)
    (given : job.givenFiles.files ≠ []) :
    (job.run tools clock d).session.work.stats.filesProcessed =
      (job.givenFiles.repaired d).length := by
  obtain ⟨t, returns, -, result⟩ := run_returns found tools inTime
  have counted := Run.phases_processed returns given fun path there =>
    ⟨(mem_targets there).1, (mem_targets there).2.1⟩
  rw [result.stats_eq]
  refine counted.trans ((Nat.zero_add _).trans ?_)
  simp only [started, holdsText_preprocessed]
  rfl

theorem found_once (found : ¬job.givenFiles.Homeless d) : ¬job.once.givenFiles.Homeless d :=
  found

theorem inTime_once (inTime : ∀ n, (job.givenFiles.deadline clock).expired (clock n) = false)
    (n : Nat) : (job.once.givenFiles.deadline clock).expired (clock n) = false :=
  inTime n

theorem run_processed_once (found : ¬job.givenFiles.Homeless d) (tools : Tools)
    (inTime : ∀ n, (job.givenFiles.deadline clock).expired (clock n) = false)
    (given : job.givenFiles.files ≠ []) :
    (job.once.run tools clock d).session.work.stats.filesProcessed =
      (job.givenFiles.repaired d).eraseDups.length := by
  have itself := job.givenFiles_once
  have given' : job.once.givenFiles.files ≠ [] := by
    rw [itself]
    exact once_files_ne_nil given
  rw [run_processed (found_once found) tools (inTime_once inTime) given', itself, repaired_once]

/-- Runs leave the same where no file is repaired twice and preprocessing is settled. -/
theorem sameResult_once (found : ¬job.givenFiles.Homeless d) (tools : Tools)
    (inTime : ∀ n, (job.givenFiles.deadline clock).expired (clock n) = false)
    (settles : ∀ path ∈ job.givenFiles.targets d,
      2 ≤ (job.givenFiles.targets d).count path → job.Settles d path)
    (nodup : (job.givenFiles.repaired d).Nodup) :
    (job.run tools clock d).SameResult (job.once.run tools clock d) := by
  have itself := job.givenFiles_once
  by_cases given : job.givenFiles.files = []
  · have same : job.once.run tools clock d = job.run tools clock d := by
      unfold run
      rw [itself, once_of_none given]
    rw [same]
    exact ⟨rfl, rfl, rfl⟩
  · obtain ⟨t, returns, -, result⟩ := run_returns found tools inTime
    obtain ⟨t', returns', -, result'⟩ := run_returns (found_once found) tools (inTime_once inTime)
    have prepared := preprocessed_once settles
    have started : job.once.givenFiles.started tools clock d =
        (job.givenFiles.started tools clock d).named job.once.files (job.once.targets d) := by
      rw [itself, Job.started, prepared]
      rfl
    have named := Run.phases_named (sameTargets_once given nodup tools clock) returns
    rw [← started] at named
    obtain rfl : t = t' := congrArg Prod.snd (named.symm.trans returns')
    rw [itself, prepared] at result'
    exact result.symm.trans result'

/-- **What giving a file twice changes.** For every job in time: with each file given only once the
targets are the same ones without repetitions. Preprocessing goes over a file once for each target
that leads to it. The summary counts a repaired file as often as it is given. So the results are the
same only if no repaired file is given twice; and then they are, unless one pass of preprocessing
does not settle a file that is given twice. -/
theorem run_once (job : Job) (tools : Tools) (clock : Nat → Float) (d : Disk)
    (found : ¬job.givenFiles.Homeless d)
    (inTime : ∀ n, (job.givenFiles.deadline clock).expired (clock n) = false) :
    let given := job.givenFiles
    let all := job.run tools clock d
    let once := job.once.run tools clock d
    (all.error = none ∧ once.error = none) ∧
    (job.once.targets d = (given.targets d).eraseDups ∧ (job.once.targets d).Nodup) ∧
    (given.settings.skipPreprocessing = false → ∀ path here, d.locate path = .ok here →
      (given.preprocessed d).read path = (d.read path).map
        (Preprocess.bytesAfter given.rules)^[Preprocess.visits d (given.targets d) here]) ∧
    (given.files ≠ [] →
      all.session.work.stats.filesProcessed = (given.repaired d).length ∧
        once.session.work.stats.filesProcessed = (given.repaired d).eraseDups.length) ∧
    (all.SameResult once → (given.repaired d).Nodup) ∧
    ((∀ path ∈ given.targets d, 2 ≤ (given.targets d).count path → given.Settles d path) →
      (given.repaired d).Nodup → all.SameResult once) := by
  intro given all once
  have distinct : (job.once.targets d).Nodup := by
    rw [targets_once]
    exact nodup_eraseDups _
  refine ⟨⟨run_completes found tools inTime, run_completes (found_once found) tools
      (inTime_once inTime)⟩, ⟨job.targets_once d, distinct⟩, fun skips path here located => ?_,
    fun some => ⟨run_processed found tools inTime some, run_processed_once found tools inTime some⟩,
    fun same => ?_, sameResult_once found tools inTime⟩
  · have passes := Preprocess.read_files given.rules located (given.targets d)
    rwa [preprocessed, preprocess, if_neg (by simpa using skips)]
  · by_cases some : given.files = []
    · exact (nodup_targets_of_none some d).filter _
    · have counts := congrArg Stats.filesProcessed same.stats_eq
      rw [run_processed found tools inTime some, run_processed_once found tools inTime some]
        at counts
      exact length_eraseDups_eq_iff.mp counts

/-- A clock that stands still. -/
def stillClock : Nat → Float :=
  fun _ => 0.0

/-- A module, and a declaration file beside it. -/
def typedDisk : Disk where
  nodes := [("/proj", .directory), ("/proj/src", .directory),
    ("/proj/src/a.ts", .file "export const x = 1;\n".toUTF8),
    ("/proj/src/b.d.ts", .file "```ts\nexport declare const y: string;\n```".toUTF8)]

/-- Both files are given, and the second one in two spellings. There is no limit of time. -/
def typedTwice : Job where
  directory := "/proj"
  files := ["src/a.ts", "src/b.d.ts", "./src/../src/b.d.ts"]
  settings := { timeoutSeconds := 0.0 }

theorem typedTwice_run : ¬typedTwice.givenFiles.Homeless typedDisk ∧
    (∀ n, (typedTwice.givenFiles.deadline stillClock).expired (stillClock n) = false) ∧
    typedTwice.givenFiles.targets typedDisk =
      ["/proj/src/a.ts", "/proj/src/b.d.ts", "/proj/src/b.d.ts"] ∧
    typedTwice.once.targets typedDisk = ["/proj/src/a.ts", "/proj/src/b.d.ts"] ∧
    (typedTwice.run .none stillClock typedDisk).SameResult
      (typedTwice.once.run .none stillClock typedDisk) := by
  have found : ¬typedTwice.givenFiles.Homeless typedDisk := by
    unfold Homeless
    decide +kernel
  have inTime (n : Nat) :
      (typedTwice.givenFiles.deadline stillClock).expired (stillClock n) = false := by
    change (typedTwice.givenFiles.deadline stillClock).expired 0.0 = false
    decide +kernel
  have targets : typedTwice.givenFiles.targets typedDisk =
      ["/proj/src/a.ts", "/proj/src/b.d.ts", "/proj/src/b.d.ts"] := by decide +kernel
  obtain ⟨-, ⟨once, -⟩, -, -, -, same⟩ :=
    typedTwice.run_once .none stillClock typedDisk found inTime
  refine ⟨found, inTime, targets, once.trans (by rw [targets]; decide), same ?_ (by decide +kernel)⟩
  have settles : typedTwice.givenFiles.Settles typedDisk "/proj/src/b.d.ts" := by
    have read : typedDisk.read "/proj/src/b.d.ts" =
        .ok "```ts\nexport declare const y: string;\n```".toUTF8 := by rfl
    refine .inr fun bytes there => ?_
    obtain rfl := Except.ok.inj (read.symm.trans there)
    decide +kernel
  rw [targets]
  intro path there twice
  simp only [List.mem_cons, List.not_mem_nil, or_false, or_self] at there
  rcases there with rfl | rfl
  · exact absurd twice (by decide)
  · exact settles

/-- A project of one module. -/
def constantDisk : Disk where
  nodes := [("/proj", .directory), ("/proj/src", .directory),
    ("/proj/src/a.ts", .file "export const x = 1;\n".toUTF8)]

/-- The module is given twice. -/
def constantTwice : Job where
  directory := "/proj"
  files := ["src/a.ts", "src/a.ts"]
  settings := { timeoutSeconds := 0.0 }

/-- It is preprocessed twice and counted twice. -/
theorem constantTwice_counted : ¬constantTwice.givenFiles.Homeless constantDisk ∧
    (∀ n, (constantTwice.givenFiles.deadline stillClock).expired (stillClock n) = false) ∧
    constantTwice.once.files = ["src/a.ts"] ∧
    constantTwice.givenFiles.targets constantDisk = ["/proj/src/a.ts", "/proj/src/a.ts"] ∧
    let all := constantTwice.run .none stillClock constantDisk
    let once := constantTwice.once.run .none stillClock constantDisk
    all.session.work.stats.filesProcessed = 2 ∧ once.session.work.stats.filesProcessed = 1 ∧
      ¬all.SameResult once := by
  have found : ¬constantTwice.givenFiles.Homeless constantDisk := by
    unfold Homeless
    decide +kernel
  have inTime (n : Nat) :
      (constantTwice.givenFiles.deadline stillClock).expired (stillClock n) = false := by
    change (constantTwice.givenFiles.deadline stillClock).expired 0.0 = false
    decide +kernel
  have repaired : constantTwice.givenFiles.repaired constantDisk =
      ["/proj/src/a.ts", "/proj/src/a.ts"] := by decide +kernel
  have all := run_processed found .none inTime (by decide)
  have once := run_processed_once found .none inTime (by decide)
  rw [repaired] at all once
  refine ⟨found, inTime, by decide +kernel, by decide +kernel, all, once, fun same => ?_⟩
  have counts := congrArg Stats.filesProcessed same.stats_eq
  rw [all, once] at counts
  cases counts

end Job

end ModuleRepair
