import Mathlib.Data.List.Find
import ModuleRepair.BuildLog.Repair
import ModuleRepair.Export.Normalize
import ModuleRepair.Proofs.Project.Order

/-!
# Projects with the same paths

A pass changes the texts of modules, and their paths stay. Where a specifier leads is decided by the
paths alone (`Project.SamePaths.path_resolve?`). So the imports that a pass is about are the same
ones before and after other modules have been changed.
-/
namespace ModuleRepair

/-- Two projects in which every specifier leads to the same path. -/
structure Project.SamePaths (p q : Project) : Prop where
  directory_eq : q.directory = p.directory
  root_eq : q.root = p.root
  found : ∀ path, (q.find? path).isSome = (p.find? path).isSome

namespace Project

variable {p q k : Project} {change : SourceFile → SourceFile} {f : SourceFile}

/-! ## Changes of modules -/

/-- The project with each module changed. -/
def mapFiles (p : Project) (change : SourceFile → SourceFile) : Project :=
  { p with files := p.files.map change }

theorem mapFiles_mapFiles (p : Project) (first second : SourceFile → SourceFile) :
    (p.mapFiles first).mapFiles second = p.mapFiles (second ∘ first) := by
  simp only [mapFiles, List.map_map]

theorem mapFiles_congr {change' : SourceFile → SourceFile}
    (same : ∀ f ∈ p.files, change' f = change f) : p.mapFiles change' = p.mapFiles change := by
  rw [mapFiles, List.map_congr_left same, mapFiles]

theorem mapFiles_eq_self (same : ∀ f ∈ p.files, change f = f) : p.mapFiles change = p := by
  rw [mapFiles, List.map_congr_left (g := id) same, List.map_id]

/-- What changes keep of the modules can be searched for before or after them. -/
theorem find?_files_mapFiles {q : SourceFile → Bool} (same : ∀ f ∈ p.files, q (change f) = q f) :
    (p.mapFiles change).files.find? q = (p.files.find? q).map change := by
  rw [mapFiles, List.find?_map]
  exact congrArg (Option.map change) (List.find?_congr same)

theorem find?_mapFiles (own : ∀ f ∈ p.files, (change f).path = f.path) (path : String) :
    (p.mapFiles change).find? path = (p.find? path).map change :=
  find?_files_mapFiles fun f hf => by rw [own f hf]

theorem Ordered.mapFiles (h : p.Ordered) (own : ∀ f ∈ p.files, (change f).path = f.path) :
    (p.mapFiles change).Ordered := by
  refine List.pairwise_map.mpr (h.imp_of_mem fun {f g} hf hg before => ?_)
  rwa [own f hf, own g hg]

/-- Two modules under one path are the same one. -/
theorem Ordered.eq_of_path {g : SourceFile} (h : p.Ordered) (hf : f ∈ p.files) (hg : g ∈ p.files)
    (same : g.path = f.path) : g = f := by
  have found := h.find?_of_mem hg
  rw [same, h.find?_of_mem hf] at found
  exact (Option.some.inj found).symm

/-- Putting a module in where there is one changes just this one. -/
theorem Ordered.put_eq_mapFiles (h : p.Ordered) {g : SourceFile} (hf : f ∈ p.files)
    (same : g.path = f.path) :
    p.put g = p.mapFiles fun k => if k.path = f.path then g else k := by
  have inserted {files : List SourceFile} (h : files.Pairwise (·.path < ·.path))
      (hf : f ∈ files) :
      insert g files = files.map fun k => if k.path = f.path then g else k := by
    induction files with
    | nil => cases hf
    | cons a files ih =>
      obtain ⟨first, rest⟩ := List.pairwise_cons.mp h
      rcases List.mem_cons.mp hf with rfl | hf
      · have others : files.map (fun k => if k.path = f.path then g else k) = files :=
          (List.map_congr_left fun k hk => if_neg (String.ne_of_lt (first k hk)).symm).trans
            (List.map_id files)
        simp [insert, same, others]
      · have before := first f hf
        have other : a.path ≠ f.path := String.ne_of_lt before
        simp [insert, same, other, String.not_lt.mpr (Std.le_of_lt before), ih rest hf]
  rw [Project.put, inserted h hf, Project.mapFiles]

namespace SamePaths

theorem refl (p : Project) : p.SamePaths p :=
  ⟨rfl, rfl, fun _ => rfl⟩

theorem trans (h : p.SamePaths q) (h' : q.SamePaths k) : p.SamePaths k :=
  ⟨h'.directory_eq.trans h.directory_eq, h'.root_eq.trans h.root_eq,
    fun path => (h'.found path).trans (h.found path)⟩

theorem mapFiles (own : ∀ f ∈ p.files, (change f).path = f.path) :
    p.SamePaths (p.mapFiles change) where
  directory_eq := rfl
  root_eq := rfl
  found path := by rw [find?_mapFiles own, Option.isSome_map]

/-! ## Where a specifier leads -/

/-- Where a specifier leads to is decided by the paths alone. -/
theorem path_resolve? (h : p.SamePaths q) (importer specifier : String) :
    (q.resolve? importer specifier).map (·.path) =
      (p.resolve? importer specifier).map (·.path) := by
  have first (k : Project) (paths : List String) :
      (paths.findSome? k.find?).map (·.path) = paths.find? fun path => (k.find? path).isSome := by
    induction paths with
    | nil => rfl
    | cons path paths ih =>
      rw [List.findSome?_cons, List.find?_cons]
      cases found : k.find? path with
      | none => exact ih
      | some f => simp [Project.path_of_find? found]
  have base : q.basePath? importer specifier = p.basePath? importer specifier := by
    simp only [Project.basePath?, Project.resolvePath, h.directory_eq, h.root_eq]
  simp only [Project.resolve?, base]
  cases p.basePath? importer specifier with
  | none => rfl
  | some base => simp only [first, h.found]

theorem any_resolve? (h : p.SamePaths q) (importer specifier target : String) :
    (q.resolve? importer specifier).any (·.path = target) =
      (p.resolve? importer specifier).any (·.path = target) := by
  have leads (k : Project) : (k.resolve? importer specifier).any (·.path = target) =
      ((k.resolve? importer specifier).map (·.path)).any (· = target) := by
    rw [Option.any_map]
  rw [leads, leads, h.path_resolve?]

theorem importsMismatch (h : p.SamePaths q) (m : Mismatch) (consumer defining : String) :
    q.importsMismatch m consumer defining = p.importsMismatch m consumer defining := by
  funext d
  rw [Project.importsMismatch, h.any_resolve?, Project.importsMismatch]

theorem importsDefault (h : p.SamePaths q) (importer target name : String) :
    q.importsDefault importer target name = p.importsDefault importer target name := by
  funext d
  rw [Project.importsDefault, h.any_resolve?, Project.importsDefault]

end SamePaths

end Project

end ModuleRepair
