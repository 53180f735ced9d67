import ModuleRepair.Proofs.Disk.Tree
import ModuleRepair.Proofs.Project.Order

/-!
# What a project was read from

Loading reads the given files and, in full mode, the modules of the tree. Every module of a loaded
project is one that can be read, and it was read under its own path (`readFrom_load`).
-/
namespace ModuleRepair.Project

open ModuleRepair.Path ModuleRepair.Script ModuleRepair.SourceFile

variable {d : Disk} {source : String → Prop} {p : Project}

/-- The modules were read from a disk, under paths of some kind. -/
structure ReadFrom (d : Disk) (source : String → Prop) (p : Project) : Prop where
  ordered : p.Ordered
  read : ∀ f ∈ p.files, source f.path ∧
    ∃ bytes, d.read f.path = .ok bytes ∧ Text.decode bytes = .ok f.saved

theorem ReadFrom.mono {source' : String → Prop} (h : p.ReadFrom d source)
    (weaker : ∀ path, source path → source' path) : p.ReadFrom d source' :=
  ⟨h.ordered, fun f hf => (h.read f hf).imp_left (weaker f.path)⟩

theorem resolvePath_absolute (p : Project) (path : String) :
    p.resolvePath (absolute path) = absolute path := by
  rw [resolvePath, join_of_isAbsolute (isAbsolute_absolute path), absolute_absolute]

theorem ReadFrom.addFromDisk (h : p.ReadFrom d source) {path : String}
    (normal : absolute path = path) (allowed : source path) :
    (p.addFromDisk d path).1.ReadFrom d source := by
  have itself : p.resolvePath path = path := by
    rw [← normal]
    exact p.resolvePath_absolute path
  unfold Project.addFromDisk
  rw [itself]
  dsimp only
  split
  · next bytes read =>
    split
    · next text decoded =>
      refine ⟨h.ordered.put _, fun f hf => ?_⟩
      rcases mem_insert hf with rfl | hf
      · simp only [ofText, normal]
        exact ⟨allowed, bytes, read, decoded⟩
      · exact h.read f hf
    · exact h
  · exact h

theorem ReadFrom.addAll {paths : List String} (h : p.ReadFrom d source)
    (allowed : ∀ path ∈ paths, absolute path = path ∧ source path) :
    (p.addAll d paths).1.ReadFrom d source := by
  refine List.foldlRecOn (motive := fun done : Project × List Notice => done.1.ReadFrom d source)
    paths _ h ?_
  rintro ⟨q, notices⟩ hq path there
  have here := hq.addFromDisk (allowed path there).1 (allowed path there).2
  cases added : q.addFromDisk d path with
  | mk q' notice =>
    rw [added] at here
    simpa only [added] using here

/-- The paths that are loaded are those of given modules, and in full mode of all in the tree. -/
theorem mem_pathsToLoad {files : List String} {path : String} :
    path ∈ p.pathsToLoad d files ↔
      (isSupported path = true ∧ ∃ file ∈ files, path = p.resolvePath file) ∨
        p.mode = .full ∧ path ∈ collectFiles d p.directory largestFile := by
  have chosen : path ∈ (files.map p.resolvePath).filter isSupported ↔
      isSupported path = true ∧ ∃ file ∈ files, path = p.resolvePath file := by
    rw [List.mem_filter, List.mem_map, and_comm]
    simp only [eq_comm]
  unfold pathsToLoad
  cases mode : p.mode <;> simp [mem_sortedPaths, chosen, or_comm]

theorem normal_pathsToLoad {files : List String} {path : String}
    (h : path ∈ p.pathsToLoad d files) : absolute path = path ∧ isSupported path = true := by
  rcases mem_pathsToLoad.mp h with ⟨supported, file, -, rfl⟩ | ⟨-, there⟩
  · exact ⟨absolute_absolute _, supported⟩
  · exact (isSupported_of_mem_collectFiles there).symm

/-- A project is loaded from the given files, and in full mode from the modules of the tree. -/
theorem readFrom_load {directory sourceRoot mark : String} {files : List String} {mode : IndexMode}
    {notices : List Notice}
    (h : load d directory sourceRoot mark files mode = .ok (p, notices)) :
    p.ReadFrom d fun path => isSupported path = true ∧
      ((∃ file ∈ files, path = absolute (join (absolute directory) file)) ∨
        mode = .full ∧ path ∈ collectFiles d (absolute directory) largestFile) := by
  unfold load at h
  split at h
  · cases h
  · obtain rfl : (addAll d (pathsToLoad d (empty directory sourceRoot mark mode) files)
        (empty directory sourceRoot mark mode)).1 = p := congrArg Prod.fst (Except.ok.inj h)
    refine ReadFrom.addAll ⟨.nil, nofun⟩ fun path there => ?_
    obtain ⟨normal, supported⟩ := normal_pathsToLoad there
    exact ⟨normal, supported, (mem_pathsToLoad.mp there).imp_left And.right⟩

end ModuleRepair.Project
