import ModuleRepair.Project.Storage
import ModuleRepair.Proofs.Repair.Work
import ModuleRepair.Proofs.SourceFile.Merge

/-!
# The order of a project

An index holds its modules in the order of their paths, so each path once. Putting a module in keeps
the order, and so every project that is loaded has it (`ordered_load`).
-/
namespace ModuleRepair.Project

open ModuleRepair.Text

/-- The modules are in the order of their paths, each path once. -/
def Ordered (p : Project) : Prop :=
  p.files.Pairwise (·.path < ·.path)

theorem mem_insert {f g : SourceFile} {files : List SourceFile} (h : g ∈ insert f files) :
    g = f ∨ g ∈ files := by
  induction files with
  | nil => exact .inl (List.mem_singleton.mp h)
  | cons a files ih =>
    simp only [insert] at h
    split at h
    · exact (List.mem_cons.mp h).imp_right (List.mem_cons_of_mem a)
    · split at h
      · exact List.mem_cons.mp h
      · rcases List.mem_cons.mp h with rfl | h
        · exact .inr List.mem_cons_self
        · exact (ih h).imp_right (List.mem_cons_of_mem a)

theorem pairwise_insert {files : List SourceFile} (h : files.Pairwise (·.path < ·.path))
    (f : SourceFile) : (insert f files).Pairwise (·.path < ·.path) := by
  induction files with
  | nil => simp [insert]
  | cons a files ih =>
    obtain ⟨first, rest⟩ := List.pairwise_cons.mp h
    simp only [insert]
    split
    · next same => exact List.pairwise_cons.mpr ⟨fun b hb => same ▸ first b hb, rest⟩
    · next other =>
      split
      · next before =>
        refine List.pairwise_cons.mpr ⟨fun b hb => ?_, h⟩
        rcases List.mem_cons.mp hb with rfl | hb
        · exact before
        · exact String.lt_trans before (first b hb)
      · next behind =>
        have after : a.path < f.path := Std.lt_of_le_of_ne (String.not_lt.mp behind) other
        refine List.pairwise_cons.mpr ⟨fun b hb => ?_, ih rest⟩
        rcases mem_insert hb with rfl | hb
        · exact after
        · exact first b hb

theorem Ordered.put {p : Project} (h : p.Ordered) (f : SourceFile) : (p.put f).Ordered :=
  pairwise_insert h f

theorem Ordered.nodup {p : Project} (h : p.Ordered) : (p.files.map (·.path)).Nodup :=
  List.pairwise_map.mpr (h.imp fun before => (String.ne_of_lt before))

theorem path_of_find? {p : Project} {path : String} {f : SourceFile} (h : p.find? path = some f) :
    f.path = path := by
  simpa using List.find?_some h

/-- What takes the place of a module is found under its path, and all others as before. -/
theorem find?_replaced {p : Project} {f g : SourceFile} (found : p.find? g.path = some f)
    (other : String) :
    (p.put g).find? other = (p.find? other).map fun h => if h.path = g.path then g else h := by
  by_cases here : other = g.path
  · rw [here, p.find?_put g, found, Option.map_some, if_pos (path_of_find? found)]
  · rw [p.find?_put_of_ne here]
    cases there : p.find? other with
    | none => rfl
    | some h => rw [Option.map_some, if_neg (path_of_find? there ▸ here)]

/-- In order, every module is found under its path. -/
theorem Ordered.find?_of_mem {p : Project} (h : p.Ordered) {f : SourceFile} (hf : f ∈ p.files) :
    p.find? f.path = some f := by
  obtain ⟨front, back, split⟩ := List.append_of_mem hf
  have apart : ∀ g ∈ front, g.path < f.path := by
    intro g hg
    unfold Ordered at h
    rw [split, List.pairwise_append] at h
    exact h.2.2 g hg f List.mem_cons_self
  refine List.find?_eq_some_iff_append.mpr ⟨by simp, front, back, split, fun g hg => ?_⟩
  have ne : g.path ≠ f.path := fun same => String.lt_irrefl _ (same ▸ apart g hg)
  simpa using ne

/-- What was put in last under a path counts. -/
theorem put_put (p : Project) {f g : SourceFile} (same : g.path = f.path) :
    (p.put f).put g = p.put g := by
  have inserted (files : List SourceFile) : insert g (insert f files) = insert g files := by
    induction files with
    | nil => simp [insert, same]
    | cons a files ih =>
      simp only [insert, same]
      split
      · simp [insert, same]
      · next other =>
        split
        · simp [insert, same]
        · next behind => simp [insert, same, other, behind, ih]
  simp only [put, inserted]

/-- Putting a module back that is there changes nothing. -/
theorem Ordered.put_self {p : Project} (h : p.Ordered) {f : SourceFile}
    (found : p.find? f.path = some f) : p.put f = p := by
  have inserted {files : List SourceFile} (h : files.Pairwise (·.path < ·.path))
      (there : f ∈ files) : insert f files = files := by
    induction files with
    | nil => cases there
    | cons a files ih =>
      obtain ⟨first, rest⟩ := List.pairwise_cons.mp h
      rcases List.mem_cons.mp there with rfl | there
      · simp [insert]
      · have before := first f there
        have other : a.path ≠ f.path := String.ne_of_lt before
        simp [insert, other, String.not_lt.mpr (Std.le_of_lt before), ih rest there]
  rw [Project.put, inserted h (List.mem_of_find?_eq_some found)]

/-! ## Loading -/

/-- Paths that are in order stay as they are. -/
theorem inPathOrder_of_ordered {paths : List String} (h : paths.Pairwise (· < ·)) :
    inPathOrder paths = paths :=
  List.mergeSort_of_pairwise (h.imp fun before => by simpa using Std.le_of_lt before)

theorem sortedPaths_of_ordered {paths : List String} (h : paths.Pairwise (· < ·)) :
    sortedPaths paths = paths := by
  have nodup : paths.Nodup := h.imp fun before => String.ne_of_lt before
  rw [sortedPaths, eraseDups_of_nodup nodup, inPathOrder_of_ordered h]

section

variable {d : Disk} {directory sourceRoot mark : String} {files : List String} {mode : IndexMode}
  {p : Project} {notices : List Notice}

theorem addFromDisk_eq (d : Disk) (p : Project) (path : String) :
    (p.addFromDisk d path).1 = p ∨
      ∃ path' text, (p.addFromDisk d path).1 = p.put (.ofText path' text p.root) := by
  unfold addFromDisk
  dsimp only
  split
  · split
    · exact .inr ⟨_, _, rfl⟩
    · exact .inl rfl
  · exact .inl rfl

/-- Whatever stays when a module is put in stays when files are read. -/
theorem addAll_induction {motive : Project → Prop}
    (read : ∀ p path text, motive p → motive (p.put (.ofText path text p.root)))
    (paths : List String) (hp : motive p) : motive (p.addAll d paths).1 := by
  have one (p : Project) (path : String) (hp : motive p) : motive (p.addFromDisk d path).1 := by
    rcases addFromDisk_eq d p path with same | ⟨path', text, put⟩
    · rwa [same]
    · rw [put]
      exact read p path' text hp
  refine List.foldlRecOn (motive := fun done : Project × List Notice => motive done.1) paths _ hp ?_
  rintro ⟨q, notices⟩ hq path -
  have here := one q path hq
  cases added : q.addFromDisk d path with
  | mk q' notice =>
    rw [added] at here
    simpa only [added] using here

/-- Whatever holds without modules and stays when a module is put in holds of a loaded project. -/
theorem load_induction {motive : Project → Prop}
    (start : motive (Project.empty directory sourceRoot mark mode))
    (read : ∀ p path text, motive p → motive (p.put (.ofText path text p.root)))
    (h : load d directory sourceRoot mark files mode = .ok (p, notices)) : motive p := by
  unfold load at h
  split at h
  · cases h
  · have loaded := addAll_induction read (d := d) ((Project.empty directory sourceRoot mark
      mode).pathsToLoad d files) start
    rwa [Except.ok.inj h] at loaded

/-- A loaded project is in order. -/
theorem ordered_load (h : load d directory sourceRoot mark files mode = .ok (p, notices)) :
    p.Ordered :=
  load_induction List.Pairwise.nil (fun _ _ _ ordered => ordered.put _) h

end

end ModuleRepair.Project
