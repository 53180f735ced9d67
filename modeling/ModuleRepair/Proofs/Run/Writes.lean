import ModuleRepair.Proofs.Project.Load
import ModuleRepair.Proofs.Run.Atomic
import ModuleRepair.Proofs.Run.Kept

/-!
# What a run may write

A run writes at two times: preprocessing rewrites targets, and at the end the modules are written
that differ from what was read. Both rewrite files that were read before, so that a run writes its
targets and the modules of the tree, and no other files (`Job.run_writes`).
-/
namespace ModuleRepair

open ModuleRepair.Path ModuleRepair.Script ModuleRepair.SourceFile Relation

/-- Rewriting a module changes its text only. -/
theorem SourceFile.Rewriting.saved {writes : Import → List Import → Prop} {f g : SourceFile}
    (h : Rewriting writes f g) : g.saved = f.saved := by
  cases h with
  | @replaced o d gone new ho hd inside fits =>
    clear inside
    change (gone.foldr (fun d f => f.removeImport d) f).saved = f.saved
    induction gone with
    | nil => rfl
    | cons d gone ih => exact ih
  | added _ added =>
    simp only [addImport, bind, Except.bind] at added
    split at added
    · cases added
    · split at added
      · cases added
        rfl
      · split at added <;> cases added <;> rfl
  | exported marked =>
    simp only [markExported, bind, Except.bind] at marked
    split at marked
    · cases marked
    · split at marked
      · cases marked
      · split at marked <;> cases marked
        rfl
  | withoutDefault removed =>
    simp only [removeDefaultExport, bind, Except.bind] at removed
    split at removed
    · cases removed
    · obtain ⟨d, -, rfl⟩ := Option.map_eq_some_iff.mp (Except.ok.inj removed)
      rfl

theorem SourceFile.saved_of_rewritings {writes : Import → List Import → Prop} {f g : SourceFile}
    (h : ReflTransGen (Rewriting writes) f g) : g.saved = f.saved := by
  induction h with
  | refl => rfl
  | tail _ step ih => exact step.saved.trans ih

/-! ## Preprocessing -/

namespace Preprocess

variable {d : Disk} {may : String → Prop}

theorem file_rewrites (rules : Rules) {p : Progress} (h : d.Rewrites may p.disk) {path : String}
    (allowed : ∀ here, d.locate path = .ok here → may here) :
    d.Rewrites may (file rules p path).disk := by
  unfold file
  cases read : p.disk.read path with
  | error fault => exact h
  | ok old =>
    dsimp only
    split
    · exact h
    · exact h
    · next new _ =>
      obtain ⟨here, written, located, write, rewrites⟩ := Disk.write_rewrites read new
      rw [write]
      rw [h.locate_eq] at located
      exact h.trans (rewrites.mono fun _ same => same ▸ allowed here located)

/-- Preprocessing rewrites the given files only. -/
theorem files_rewrites (rules : Rules) (d : Disk) (paths : List String) :
    d.Rewrites (fun here => ∃ path ∈ paths, d.locate path = .ok here) (files rules d paths).disk :=
  List.foldlRecOn (motive := fun p : Progress => d.Rewrites _ p.disk) paths _ (.refl d)
    fun _ h path there => file_rewrites rules h fun _ located => ⟨path, there, located⟩

end Preprocess

namespace Project

variable {d : Disk} {source : String → Prop} {p p' : Project}

/-! ## Saving -/

/-- Writing modules back rewrites the modified ones, where each could be read. -/
theorem save_rewrites (readable : ∀ f ∈ p.modified, ∃ bytes, d.read f.path = .ok bytes) :
    d.Rewrites (fun here => ∃ f ∈ p.modified, d.locate f.path = .ok here) (p.save d).disk := by
  refine List.foldlRecOn (motive := fun s : Saved => d.Rewrites _ s.disk) p.modified _ (.refl d) ?_
  intro s h f there
  obtain ⟨bytes, read⟩ := readable f there
  obtain ⟨now, readNow⟩ := h.read read
  obtain ⟨here, written, located, write, rewrites⟩ :=
    Disk.write_rewrites readNow f.text.toUTF8
  rw [h.locate_eq] at located
  have unlocked : s.disk.writeUnlocked (fun _ => false) f.path f.text.toUTF8 = some written := by
    rw [Disk.writeUnlocked, h.locate_eq, located, write]
    rfl
  unfold saveOne
  rw [unlocked]
  exact h.trans (rewrites.mono fun _ same => same ▸ ⟨f, there, located⟩)

theorem lasting_readFrom : Lasting (ReadFrom d source) where
  ordered h := h.ordered
  evolves {p p'} h evolves := by
    refine ⟨evolves.ordered, fun f' hf' => ?_⟩
    have modules := evolves.modules f'.path
    rw [evolves.ordered.find?_of_mem hf'] at modules
    generalize found : p.find? f'.path = before at modules
    cases modules with
    | some changes =>
      have read := h.read _ (List.mem_of_find?_eq_some found)
      rwa [← path_of_rewritings changes, ← saved_of_rewritings changes] at read

end Project

/-! ## Targets -/

theorem Target.given_eq {d : Disk} {directory file path : String}
    (h : (given d (absolute directory) file).1 = some path) :
    path = normalize (join (absolute directory) file) ∧ absolute path = path ∧
      isSupported path = true := by
  have normal : absolute (normalize (join (absolute directory) file)) =
      normalize (join (absolute directory) file) := by
    rw [normalize_eq (isAbsolute_join (isAbsolute_absolute directory) file), absolute_absolute]
  unfold given at h
  dsimp only at h
  split at h
  · cases h
  · split at h
    · next supported =>
      obtain rfl := Option.some.inj h
      exact ⟨rfl, normal, supported⟩
    · cases h

namespace Job

theorem mem_targets {job : Job} {d : Disk} {path : String} (h : path ∈ job.targets d) :
    absolute path = path ∧ isSupported path = true ∧ (job.files ≠ [] →
      ∃ file ∈ job.files, path = normalize (join (absolute job.directory) file)) := by
  unfold targets Target.paths at h
  split at h
  · next none =>
    obtain ⟨supported, normal⟩ := isSupported_of_mem_collectFiles (List.mem_filter.mp h).1
    exact ⟨normal, supported, fun some => absurd (List.isEmpty_iff.mp none) some⟩
  · obtain ⟨result, listed, found⟩ := List.mem_filterMap.mp h
    obtain ⟨file, hf, rfl⟩ := List.mem_map.mp listed
    obtain ⟨path_eq, normal, supported⟩ := Target.given_eq found
    exact ⟨normal, supported, fun _ => ⟨file, hf, path_eq⟩⟩

theorem preprocess_rewrites (job : Job) (d : Disk) :
    d.Rewrites (fun here => ∃ path ∈ job.targets d, d.locate path = .ok here)
      (job.preprocessed d) := by
  unfold preprocessed preprocess
  split
  · exact .refl d
  · exact Preprocess.files_rewrites _ d _

/-- The work of a run where its phases end. -/
def worked (job : Job) (tools : Tools) (clock : Nat → Float) (d : Disk) : Work :=
  let r := job.started tools clock d
  let missing := (Target.paths d r.directory job.files).2
  let notices := missing ++ (job.preprocess d r.targets).notices
  (r.phases.run (job.session r.directory notices)).2.work

theorem perform_disk (job : Job) (tools : Tools) (clock : Nat → Float) (d : Disk) :
    (job.perform tools clock d).disk = job.preprocessed d ∨
      (job.perform tools clock d).disk =
        ((job.worked tools clock d).project.save (job.preprocessed d)).disk := by
  let r := job.started tools clock d
  let s := job.session r.directory
    ((Target.paths d r.directory job.files).2 ++ (job.preprocess d r.targets).notices)
  have result : job.perform tools clock d = settle r.disk (r.phases.run s) := rfl
  have work : job.worked tools clock d = (r.phases.run s).2.work := rfl
  rw [result, work]
  rcases r.phases.run s with ⟨e | done, last⟩
  · exact .inl rfl
  · exact .inr rfl

/-- The modules of a run are targets, or of the tree if that is indexed. -/
theorem readFrom_worked (job : Job) (tools : Tools) (clock : Nat → Float) (d : Disk) :
    (job.worked tools clock d).project.ReadFrom (job.preprocessed d) fun path =>
      isSupported path = true ∧ (path ∈ job.targets d ∨
        (job.started tools clock d).indexMode = .full ∧
          path ∈ collectFiles (job.preprocessed d) (absolute job.directory) largestFile) := by
  let r := job.started tools clock d
  have keeps := r.keeps_phases Project.lasting_readFrom fun p notices loaded =>
    Project.readFrom_load loaded
  have itself : absolute r.directory = absolute job.directory := absolute_absolute job.directory
  rw [itself] at keeps
  refine (keeps (job.session _ _) ⟨.nil, nofun⟩).mono ?_
  rintro path ⟨supported, ⟨file, there, rfl⟩ | tree⟩
  · -- The paths of targets are normal, so that each leads to itself.
    have normal := (mem_targets there).1
    rw [← normal, join_of_isAbsolute (isAbsolute_absolute file), absolute_absolute, normal]
      at supported ⊢
    exact ⟨supported, .inl there⟩
  · exact ⟨supported, .inr tree⟩

variable {job : Job} {tools : Tools} {clock : Nat → Float} {d : Disk} {path : String}

/-- Whether a file may be written: it is a module, and a target or part of the indexed tree. -/
def MayWrite (job : Job) (d : Disk) (path : String) : Prop :=
  isSupported path = true ∧ ((∃ target ∈ job.targets d, d.locate target = .ok path) ∨
    (job.files = [] ∨ job.settings.indexMode = .full) ∧
      ∃ f ∈ collectFiles d (absolute job.directory) largestFile, d.locate f = .ok path)

theorem preprocess_mayWrite (job : Job) (d : Disk) :
    d.Rewrites (job.MayWrite d) (job.preprocessed d) := by
  refine (job.preprocess_rewrites d).mono ?_
  rintro path ⟨target, there, located⟩
  exact ⟨Disk.isSupported_locate (mem_targets there).2.1 located, .inl ⟨target, there, located⟩⟩

theorem save_mayWrite (job : Job) (tools : Tools) (clock : Nat → Float) (d : Disk) :
    let project := (job.worked tools clock d).project
    (job.preprocessed d).Rewrites (fun path => job.MayWrite d path ∧
        ∃ f ∈ project.modified, d.locate f.path = .ok path)
      (project.save (job.preprocessed d)).disk := by
  intro project
  have rewritten := job.preprocess_rewrites d
  have sources := job.readFrom_worked tools clock d
  have loaded (f : SourceFile) (hf : f ∈ project.modified) :=
    sources.read f (List.mem_filter.mp hf).1
  refine (Project.save_rewrites fun f hf => ?_).mono ?_
  · obtain ⟨-, bytes, read, -⟩ := loaded f hf
    exact ⟨bytes, read⟩
  · rintro path ⟨f, hf, located⟩
    obtain ⟨⟨supported, origin⟩, -⟩ := loaded f hf
    rw [rewritten.locate_eq] at located
    have target (there : f.path ∈ job.targets d) :
        ∃ target ∈ job.targets d, d.locate target = .ok path := ⟨f.path, there, located⟩
    refine ⟨⟨Disk.isSupported_locate supported located, ?_⟩, f, hf, located⟩
    rcases origin with there | ⟨full, there⟩
    · exact .inl (target there)
    · -- The tree is looked through behind preprocessing, which may have cut a file down to size.
      rcases mem_collectFiles_of_rewrites rewritten there located with there | target
      · refine .inr ⟨?_, f.path, there, located⟩
        unfold Run.indexMode at full
        split at full
        · next none => exact .inl (List.isEmpty_iff.mp none)
        · exact .inr full
      · exact .inl target

theorem run_mayWrite (job : Job) (tools : Tools) (clock : Nat → Float) (d : Disk) :
    d.Rewrites (job.givenFiles.MayWrite d) (job.run tools clock d).disk := by
  unfold run
  dsimp only
  split
  · exact .refl d
  · have prepared := job.givenFiles.preprocess_mayWrite d
    rcases job.givenFiles.perform_disk tools clock d with early | late
    · rw [early]
      exact prepared
    · rw [late]
      exact prepared.trans ((job.givenFiles.save_mayWrite tools clock d).mono fun _ may => may.1)

/-- A file stays that preprocessing has left alone and that no pass has edited. -/
theorem run_keeps {bytes : ByteArray} (before : d.node? path = some (.file bytes))
    (prepared : (job.givenFiles.preprocessed d).node? path = some (.file bytes))
    (unedited : ∀ f ∈ (job.givenFiles.worked tools clock d).project.files,
      d.locate f.path = .ok path → Text.decode bytes = .ok f.text) :
    (job.run tools clock d).disk.node? path = some (.file bytes) := by
  unfold run
  dsimp only
  split
  · exact before
  · rcases job.givenFiles.perform_disk tools clock d with early | late
    · rw [early, prepared]
    · rw [late]
      refine ((job.givenFiles.save_mayWrite tools clock d).found path).elim
        (fun same => same.trans prepared) ?_
      rintro ⟨⟨-, f, hf, located⟩, -⟩
      obtain ⟨there, modified⟩ := List.mem_filter.mp hf
      obtain ⟨-, old, read, decoded⟩ :=
        (job.givenFiles.readFrom_worked tools clock d).read f there
      obtain ⟨here, located', node⟩ := Disk.read_eq_ok.mp read
      rw [(job.givenFiles.preprocess_rewrites d).locate_eq, located] at located'
      obtain rfl := Except.ok.inj located'
      obtain rfl : bytes = old := by simpa [prepared] using node
      have same : f.saved = f.text := Except.ok.inj (decoded.symm.trans (unedited f there located))
      simp [isModified, same] at modified

end Job

end ModuleRepair
