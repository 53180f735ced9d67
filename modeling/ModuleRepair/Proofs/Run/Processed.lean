import ModuleRepair.Proofs.Preprocess.Passes
import ModuleRepair.Proofs.Project.Indexed
import ModuleRepair.Proofs.Run.Oblivious
import ModuleRepair.Proofs.Text.Bytes

/-!
# How many files a run processes

Only the repair of a batch counts processed files, and it counts the targets of the batch as often
as they are named. So the summary of a run with given files counts those that hold a text and may be
changed, with all repetitions (`Run.phases_processed`).
-/
namespace ModuleRepair

open ModuleRepair.Path ModuleRepair.Script ModuleRepair.SourceFile

/-! ## Files that hold a text -/

/-- Whether a text can be read under a path. -/
def Disk.holdsText (d : Disk) (path : String) : Bool :=
  match d.read path with
  | .ok bytes => (Text.decode bytes).isOk
  | .error _ => false

namespace Preprocess

/-- What is rewritten was a text and is one again. -/
theorem isOk_decode_bytesAfter (rules : Rules) (bytes : ByteArray) :
    (Text.decode (bytesAfter rules bytes)).isOk = (Text.decode bytes).isOk := by
  cases decoded : Text.decode bytes with
  | error fault => simp only [bytesAfter, decoded]
  | ok t =>
    simp only [bytesAfter, decoded]
    split
    · rw [decoded]
    · simp only [Text.decode_toUTF8, Except.isOk, Except.toBool]

theorem isOk_decode_iterate (rules : Rules) (bytes : ByteArray) (passes : Nat) :
    (Text.decode ((bytesAfter rules)^[passes] bytes)).isOk = (Text.decode bytes).isOk := by
  induction passes with
  | zero => rfl
  | succ passes ih => rw [Function.iterate_succ_apply', isOk_decode_bytesAfter, ih]

/-- Preprocessing makes no text unreadable, and nothing readable. -/
theorem files_holdsText (rules : Rules) (d : Disk) (paths : List String) (path : String) :
    (files rules d paths).disk.holdsText path = d.holdsText path := by
  unfold Disk.holdsText
  cases located : d.locate path with
  | error fault => rw [read_files_of_error rules located]
  | ok here =>
    rw [read_files rules located]
    cases d.read path with
    | error fault => rfl
    | ok bytes => exact isOk_decode_iterate rules bytes _

end Preprocess

/-! ## The targets among the modules -/

namespace Project

variable {d : Disk} {root : AliasRoot} {p : Project} {path : String}

theorem isSome_onDisk? (d : Disk) (root : AliasRoot) (path : String) :
    (onDisk? d root path).isSome = d.holdsText path := by
  unfold onDisk? Disk.holdsText
  cases d.read path with
  | error fault => rfl
  | ok bytes =>
    dsimp only
    cases Text.decode bytes <;> rfl

/-- A given module is in the project if it holds a text. -/
theorem isSome_find?_load {directory sourceRoot mark : String} {files : List String}
    {mode : IndexMode} {notices : List Notice}
    (loaded : load d directory sourceRoot mark files mode = .ok (p, notices))
    (normal : absolute path = path) (supported : isSupported path = true) (there : path ∈ files) :
    (p.find? path).isSome = d.holdsText path := by
  rw [load_eq] at loaded
  split at loaded
  · let start := empty directory sourceRoot mark mode
    obtain rfl : (start.addAll d (start.pathsToLoad d files)).1 = p :=
      congrArg Prod.fst (Except.ok.inj loaded)
    have itself : path = start.resolvePath path := by
      rw [← normal, resolvePath_absolute]
    have listed : path ∈ start.pathsToLoad d files :=
      mem_pathsToLoad.mpr (.inl ⟨supported, path, there, itself⟩)
    have found : (start.addAll d (start.pathsToLoad d files)).1.find? path =
        onDisk? d start.root path := by
      ext f
      rw [find?_loaded rfl, and_iff_right listed]
    rw [found, isSome_onDisk?]
  · cases loaded

end Project

/-- Whether a repair may change the module under a path. -/
def Target.mayChange (path : String) : Bool :=
  !isVendored path && !isDeclarationFile path

/-- The targets among given files are those in the project that may be changed, in the order in
which they are given and as often. -/
theorem Target.modules_eq_filter {p : Project} {files paths : List String} (given : files ≠ [])
    (normal : ∀ path ∈ paths, absolute path = path) :
    modules p files paths = paths.filter fun path => (p.find? path).isSome && mayChange path := by
  have some : files.isEmpty = false := List.isEmpty_eq_false_iff.mpr given
  simp only [modules, some, Bool.false_eq_true, if_false]
  induction paths with
  | nil => rfl
  | cons path paths ih =>
    obtain ⟨itself, normal⟩ := List.forall_mem_cons.mp normal
    have ih := ih normal
    rw [List.filterMap_cons, Project.get?_of_absolute itself]
    cases found : p.find? path with
    | none => simpa [found] using ih
    | some f =>
      have same : f.isTarget = mayChange path := by
        rw [← Project.path_of_find? found]
        rfl
      cases may : mayChange path <;>
        simp [found, may, same, Project.path_of_find? found, ih]

/-- While no module comes or goes, the targets are the given files that hold a text and may be
changed. -/
theorem Target.modules_of_load {d : Disk} {directory sourceRoot mark : String}
    {loadedPaths paths files : List String} {mode : IndexMode} {loaded p : Project}
    {notices : List Notice}
    (load : Project.load d directory sourceRoot mark loadedPaths mode = .ok (loaded, notices))
    (kept : ∀ path, (p.find? path).isSome = (loaded.find? path).isSome) (given : files ≠ [])
    (modules' : ∀ path ∈ paths, path ∈ loadedPaths ∧ absolute path = path ∧
      isSupported path = true) :
    modules p files paths = paths.filter fun path => d.holdsText path && mayChange path := by
  rw [modules_eq_filter given fun path there => (modules' path there).2.1]
  refine List.filter_congr fun path there => ?_
  obtain ⟨listed, normal, supported⟩ := modules' path there
  rw [kept, Project.isSome_find?_load load normal supported listed]

namespace Run

open Phase

variable {α : Type} {r : Run} {diagnostics : DiagnosticsByFile} {s t : Session}

/-! ## Counting -/

theorem processed_ofStep {step : Step α} {a : α} (h : step.Oblivious)
    (run : (Phase.ofStep step).Returns s a t) :
    t.work.stats.filesProcessed = s.work.stats.filesProcessed := by
  obtain ⟨-, rfl⟩ := run.ofStep
  exact h.filesProcessed_eq s.work

theorem fixBatch_processed {batch : List String} {done : List (String × List FixAction)}
    (h : (r.fixBatch diagnostics batch).Returns s done t) :
    t.work.stats.filesProcessed = s.work.stats.filesProcessed + batch.length := by
  obtain ⟨_, s₁, checked, h⟩ := h.bind
  obtain ⟨s₀, s₂, here, h⟩ := h.bind
  cases here
  obtain ⟨answer, s₃, fixed, h⟩ := h.bind
  obtain ⟨_, s₄, counted, h⟩ := h.bind
  obtain ⟨rfl, rfl⟩ := h.pure
  obtain ⟨-, rfl⟩ := counted.ofStep
  rw [← (check_agrees checked).stats_eq,
    ← processed_ofStep (Repairs.oblivious_fixFiles _ batch diagnostics) fixed]
  rfl

theorem fixBatches_processed {batches : List (List String)}
    {done : List (List (String × List FixAction))}
    (h : (batches.mapM (r.fixBatch diagnostics)).Returns s done t) :
    t.work.stats.filesProcessed = s.work.stats.filesProcessed + batches.flatten.length := by
  induction batches generalizing s done with
  | nil =>
    obtain ⟨rfl, rfl⟩ := h.pure
    rfl
  | cons batch batches ih =>
    rw [List.mapM_cons] at h
    obtain ⟨first, s₁, here, h⟩ := h.bind
    obtain ⟨rest, s₂, later, h⟩ := h.bind
    obtain ⟨rfl, rfl⟩ := h.pure
    rw [ih later, fixBatch_processed here, List.flatten_cons, List.length_append, Nat.add_assoc]

theorem fixDiagnostics_processed {touched : List String}
    (h : (r.fixDiagnostics diagnostics).Returns s touched t) :
    t.work.stats.filesProcessed = s.work.stats.filesProcessed +
      (Target.modules s.work.project r.job.files r.targets).length := by
  obtain ⟨s₀, s₁, here, h⟩ := h.bind
  cases here
  obtain ⟨done, s₂, fixed, h⟩ := h.bind
  have counted := fixBatches_processed fixed
  rw [Target.flatten_batchesOf] at counted
  cases h
  exact counted

theorem normalizeExports_processed {touched : List String}
    (h : r.normalizeExports.Returns s touched t) :
    t.work.stats.filesProcessed = s.work.stats.filesProcessed := by
  unfold normalizeExports at h
  split at h
  · obtain ⟨-, rfl⟩ := h.pure
    rfl
  · obtain ⟨answer, s₁, converted, h⟩ := h.bind
    obtain ⟨_, s₂, built, h⟩ := h.bind
    obtain ⟨_, s₃, checked, h⟩ := h.bind
    obtain ⟨-, rfl⟩ := h.pure
    rw [((buildSurface_agrees built).trans (check_agrees checked)).stats_eq]
    exact processed_ofStep (Normalize.oblivious_paths _) converted

theorem fixBuildLog_processed {touched : List String} (h : r.fixBuildLog.Returns s touched t) :
    t.work.stats.filesProcessed = s.work.stats.filesProcessed := by
  unfold fixBuildLog at h
  split at h
  · obtain ⟨-, rfl⟩ := h.pure
    rfl
  · obtain ⟨_, s₁, checked, h⟩ := h.bind
    rw [← (check_agrees checked).stats_eq]
    exact processed_ofStep (BuildLog.oblivious_repair _) h

theorem organize_processed {paths : List String} {u : PUnit}
    (h : Phase.Returns (forIn paths PUnit.unit fun path _ => do
      Phase.ofStep (organizeOne path)
      pure (.yield PUnit.unit)) s u t) :
    t.work.stats.filesProcessed = s.work.stats.filesProcessed := by
  induction paths generalizing s with
  | nil =>
    obtain ⟨-, rfl⟩ := h.pure
    rfl
  | cons path paths ih =>
    rw [List.forIn_cons, bind_assoc] at h
    obtain ⟨_, s₁, first, h⟩ := h.bind
    rw [ih (s := s₁) (by simpa using h), processed_ofStep (oblivious_organizeOne path) first]

/-- The targets of the diagnostics are those of the project as it was loaded. -/
theorem normalizeExports_keeps {touched : List String} {directory : String}
    (h : r.normalizeExports.Returns s touched t)
    (readable : s.work.project.Readable directory) (path : String) :
    (t.work.project.find? path).isSome = (s.work.project.find? path).isSome := by
  obtain ⟨entries, -, booked, -⟩ := normalizeExports_booked h readable
  exact booked.course.isSome_find? path

/-- The repair counts the targets that are in the project, as often as they are given. -/
theorem repair_processed {touched : List String} {directory : String}
    (h : (r.repair diagnostics).Returns s touched t) (given : r.job.files ≠ [])
    (normal : ∀ path ∈ r.targets, absolute path = path)
    (readable : s.work.project.Readable directory) :
    t.work.stats.filesProcessed = s.work.stats.filesProcessed +
      (Target.modules s.work.project r.job.files r.targets).length := by
  obtain ⟨_, s₁, built, h⟩ := h.bind
  obtain ⟨_, s₂, checked, h⟩ := h.bind
  obtain ⟨normalized, s₃, converted, h⟩ := h.bind
  obtain ⟨fixed, s₄, repaired, h⟩ := h.bind
  obtain ⟨mended, s₅, resolved, h⟩ := h.bind
  obtain ⟨rfl, rfl⟩ := h.pure
  have agrees := (buildSurface_agrees built).trans (check_agrees checked)
  rw [← agrees.project_eq] at readable
  have kept := normalizeExports_keeps converted readable
  rw [fixBuildLog_processed resolved, fixDiagnostics_processed repaired,
    normalizeExports_processed converted, agrees.stats_eq, ← agrees.project_eq,
    Target.modules_eq_filter given normal, Target.modules_eq_filter given normal]
  simp only [kept]

/-- **A run counts the given files that it may repair, as often as they are given.** -/
theorem phases_processed {a : Unit} (h : r.phases.Returns s a t) (given : r.job.files ≠ [])
    (supported : ∀ path ∈ r.targets, absolute path = path ∧ isSupported path = true) :
    t.work.stats.filesProcessed = s.work.stats.filesProcessed +
      (r.targets.filter fun path => r.disk.holdsText path && Target.mayChange path).length := by
  obtain ⟨loaded, notices, diagnostics, s', touched, s'', u, v, load, project, stats, repaired,
    organizing, last⟩ := phases_returns h
  have readable := Project.readable_load load
  rw [← project] at readable
  rw [last.stats_eq, organize_processed organizing,
    repair_processed repaired given (fun path there => (supported path there).1) readable, stats,
    project, Target.modules_of_load load (fun _ => rfl) given fun path there =>
      ⟨there, supported path there⟩]

end Run

end ModuleRepair
