import ModuleRepair.Proofs.Project.Load

/-!
# What loading indexes

A walk through a tree finds the repairable files, and no others. Loading reads the paths one by one
and passes over those that hold no text. So the index has a module for each path that is to be
loaded and can be read (`find?_addAll`); in full mode these are the modules of the tree and the given
files (`load_full`).
-/
namespace ModuleRepair.Project

open ModuleRepair.Path ModuleRepair.Script

/-- The module that a disk holds under a path; nothing if no text can be read there. -/
def onDisk? (d : Disk) (root : AliasRoot) (path : String) : Option SourceFile :=
  match d.read path with
  | .ok bytes =>
    match Text.decode bytes with
    | .ok text => some (.ofText path text root)
    | .error _ => none
  | .error _ => none

variable {d : Disk} {root : AliasRoot} {p : Project} {path : String} {paths : List String}
  {f : SourceFile}

theorem onDisk?_eq_some_iff : onDisk? d root path = some f ↔ ∃ bytes text,
    d.read path = .ok bytes ∧ Text.decode bytes = .ok text ∧ f = .ofText path text root := by
  unfold onDisk?
  cases d.read path with
  | error fault => simp
  | ok bytes => cases decoded : Text.decode bytes <;> simp [decoded, eq_comm]

/-! ## Reading paths one by one -/

/-- One file that is read changes what is found under its path, and nothing else. -/
theorem find?_addFromDisk (normal : absolute path = path) (key : String) :
    (p.addFromDisk d path).1.find? key =
      if key = path then (onDisk? d p.root path).or (p.find? path) else p.find? key := by
  have itself : p.resolvePath path = path := by
    rw [← normal]
    exact p.resolvePath_absolute path
  have read : (p.addFromDisk d path).1 = (onDisk? d p.root path).elim p p.put := by
    unfold addFromDisk onDisk?
    rw [itself]
    dsimp only
    cases d.read path with
    | error fault => rfl
    | ok bytes =>
      dsimp only
      cases Text.decode bytes <;> rfl
  rw [read]
  cases held : onDisk? d p.root path with
  | none =>
    rw [Option.elim_none]
    split
    · next same => rw [same, Option.none_or]
    · rfl
  | some f =>
    obtain ⟨bytes, text, -, -, rfl⟩ := onDisk?_eq_some_iff.mp held
    have own : (SourceFile.ofText path text p.root).path = path := normal
    rw [Option.elim_some]
    split
    · next same =>
      subst same
      have put := p.find?_put (.ofText key text p.root)
      rwa [own] at put
    · next other => exact p.find?_put_of_ne (by rwa [own])

theorem addAll_fst (d : Disk) (paths : List String) (p : Project) :
    (p.addAll d paths).1 = paths.foldl (fun p path => (p.addFromDisk d path).1) p := by
  unfold addAll
  generalize ([] : List Notice) = notices
  induction paths generalizing p notices with
  | nil => rfl
  | cons path paths ih =>
    cases added : p.addFromDisk d path with
    | mk q notice =>
      rw [List.foldl_cons, List.foldl_cons, added, ← ih q (notices ++ notice.toList)]
      simp only [added]

/-- The places of a project are those it has been made with. -/
theorem addAll_places (d : Disk) (paths : List String) (p : Project) :
    (p.addAll d paths).1.directory = p.directory ∧ (p.addAll d paths).1.root = p.root :=
  addAll_induction (motive := fun q => q.directory = p.directory ∧ q.root = p.root)
    (fun _ _ _ same => same) paths ⟨rfl, rfl⟩

/-- Of the paths that are read those are found that hold a text. -/
theorem find?_addAll (normal : ∀ path ∈ paths, absolute path = path) (key : String) :
    (p.addAll d paths).1.find? key =
      if key ∈ paths then (onDisk? d p.root key).or (p.find? key) else p.find? key := by
  induction paths generalizing p with
  | nil => rfl
  | cons path paths ih =>
    obtain ⟨first, rest⟩ := List.forall_mem_cons.mp normal
    have onward : (p.addAll d (path :: paths)).1 = ((p.addFromDisk d path).1.addAll d paths).1 := by
      rw [addAll_fst, addAll_fst, List.foldl_cons]
    have root_eq : (p.addFromDisk d path).1.root = p.root := by
      rcases addFromDisk_eq d p path with same | ⟨path', text, put⟩
      · rw [same]
      · rw [put]
        rfl
    rw [onward, ih rest, find?_addFromDisk first, root_eq]
    by_cases same : key = path
    · subst same
      cases onDisk? d p.root key <;> simp
    · simp [same]

/-! ## Loading -/

/-- A load fails only for want of a directory. -/
theorem load_eq (d : Disk) (directory sourceRoot mark : String) (files : List String)
    (mode : IndexMode) :
    load d directory sourceRoot mark files mode =
      if d.isDirectory directory = true then
        let start := empty directory sourceRoot mark mode
        .ok (start.addAll d (start.pathsToLoad d files))
      else .error (.missingDirectory directory) := by
  unfold load
  by_cases there : d.isDirectory directory = true
  · have some : directory ≠ "" := by
      rintro rfl
      cases there
    simp [there, some]
  · simp [there]

/-- It makes no difference in which order files are given, and how often. -/
theorem load_congr {files files' : List String} (same : ∀ file, file ∈ files ↔ file ∈ files')
    (d : Disk) (directory sourceRoot mark : String) (mode : IndexMode) :
    load d directory sourceRoot mark files mode = load d directory sourceRoot mark files' mode := by
  have paths : (empty directory sourceRoot mark mode).pathsToLoad d files =
      (empty directory sourceRoot mark mode).pathsToLoad d files' := by
    cases mode <;> exact sortedPaths_congr fun path => by simp [same]
  rw [load_eq, load_eq]
  dsimp only
  rw [paths]

/-- What is found in a project is what the disk holds under the paths that it loads. -/
theorem find?_loaded {start : Project} (nothing : start.files = []) (files : List String)
    (path : String) (f : SourceFile) :
    (start.addAll d (start.pathsToLoad d files)).1.find? path = some f ↔
      path ∈ start.pathsToLoad d files ∧ onDisk? d start.root path = some f := by
  have none : start.find? path = none := by rw [Project.find?, nothing, List.find?_nil]
  rw [find?_addAll fun path there => (normal_pathsToLoad there).1, none, Option.or_none]
  by_cases listed : path ∈ start.pathsToLoad d files <;> simp [listed]

/-- In full mode the modules of the tree and the given files are loaded. -/
theorem find?_load {directory sourceRoot mark : String} {files : List String}
    {notices : List Notice}
    (loaded : load d directory sourceRoot mark files .full = .ok (p, notices)) (path : String)
    (f : SourceFile) : p.find? path = some f ↔
      (path ∈ collectFiles d p.directory (2 * 1024 * 1024) ∨
        isSupported path = true ∧ ∃ file ∈ files, path = p.resolvePath file) ∧
      onDisk? d p.root path = some f := by
  rw [load_eq] at loaded
  split at loaded
  · let start := empty directory sourceRoot mark .full
    obtain rfl : (start.addAll d (start.pathsToLoad d files)).1 = p :=
      congrArg Prod.fst (Except.ok.inj loaded)
    obtain ⟨directory_eq, root_eq⟩ := addAll_places d (start.pathsToLoad d files) start
    have listed : path ∈ start.pathsToLoad d files ↔
        path ∈ collectFiles d start.directory (2 * 1024 * 1024) ∨
          isSupported path = true ∧
            ∃ file ∈ files, path = absolute (join start.directory file) := by
      rw [mem_pathsToLoad, or_comm]
      exact or_congr_left (and_iff_right rfl)
    rw [find?_loaded rfl, listed]
    simp only [resolvePath, directory_eq, root_eq]
  · cases loaded

/-- The walk finds exactly the repairable files, in order and each once: the files below the
directory whose extension is supported, that are not too large, and on the way to which no directory
is hidden or otherwise passed over. Loading the whole tree indexes exactly these and the given files,
as far as they can be read as text; it fails only if there is no such directory. -/
theorem load_full (d : Disk) (directory sourceRoot mark : String) (files : List String) :
    (∀ root limit, (collectFiles d root limit).Pairwise (· < ·) ∧
      ∀ path, path ∈ collectFiles d root limit ↔
        d.isDirectory root = true ∧ ∃ way, (way ≠ [] ∧ ∀ s ∈ way, IsName s) ∧
          path = absolute (join root (String.ofList (Text.join ['/'] way))) ∧
          (∃ bytes, d.find? path = some (.file bytes) ∧ (bytes.size : Int) ≤ limit) ∧
          isSupported path = true ∧
          ∀ s ∈ way.dropLast, isSkippedDirectory (String.ofList s) = false) ∧
    match load d directory sourceRoot mark files .full with
    | .ok (p, _) => d.isDirectory directory = true ∧ p.files.Pairwise (·.path < ·.path) ∧
      ∀ path f, p.find? path = some f ↔
        (path ∈ collectFiles d p.directory (2 * 1024 * 1024) ∨
          isSupported path = true ∧ ∃ file ∈ files, path = p.resolvePath file) ∧
        ∃ bytes text, d.read path = .ok bytes ∧ Text.decode bytes = .ok text ∧
          f = .ofText path text p.root
    | .error e => d.isDirectory directory = false ∧ e = .missingDirectory directory := by
  refine ⟨fun root limit => ⟨pairwise_collectFiles d root limit, fun path => mem_collectFiles⟩, ?_⟩
  have result := load_eq d directory sourceRoot mark files .full
  cases loaded : load d directory sourceRoot mark files .full with
  | error e =>
    rw [loaded] at result
    split at result
    · cases result
    · next missing => exact ⟨Bool.eq_false_iff.mpr missing, Except.error.inj result⟩
  | ok done =>
    obtain ⟨p, notices⟩ := done
    rw [loaded] at result
    split at result
    · next there =>
      refine ⟨there, ordered_load loaded, fun path f => ?_⟩
      rw [find?_load loaded, onDisk?_eq_some_iff]
    · cases result

end ModuleRepair.Project
