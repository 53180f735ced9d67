import Mathlib.Logic.Function.Basic
import ModuleRepair.Proofs.Disk.Rewrites
import ModuleRepair.Proofs.Disk.Filling

/-!
# Other bytes in some files

What any number of writes in place leave is the disk with other bytes in some of its files
(`overlay`). In which order the files were written is not to be seen.
-/
namespace ModuleRepair.Disk

/-- The disk with other bytes in some files. -/
def overlay (d : Disk) (bytes : String → Option ByteArray) : Disk :=
  ⟨d.nodes.map fun entry => (entry.1, ((bytes entry.1).map .file).getD entry.2)⟩

/-- Bytes are given for places of files only. -/
def FilesOnly (d : Disk) (bytes : String → Option ByteArray) : Prop :=
  ∀ here new, bytes here = some new → ∃ old, d.node? here = some (.file old)

variable {d : Disk} {bytes : String → Option ByteArray} {path here : String} {old new : ByteArray}

theorem overlay_none (d : Disk) : d.overlay (fun _ => none) = d := by
  simp [overlay]

theorem lookup_overlay (d : Disk) (bytes : String → Option ByteArray) (here : String) :
    (d.overlay bytes).nodes.lookup here =
      (d.nodes.lookup here).map fun node => ((bytes here).map .file).getD node := by
  obtain ⟨entries⟩ := d
  induction entries with
  | nil => rfl
  | cons entry rest ih =>
    obtain ⟨first, node⟩ := entry
    simp only [overlay, List.map_cons, List.lookup_cons] at ih ⊢
    by_cases same : here = first
    · simp [same]
    · have other : (here == first) = false := beq_eq_false_iff_ne.mpr same
      simp only [other, ih]

theorem ne_root_of_file (h : d.node? here = some (.file old)) : here ≠ "/" :=
  fun root => by simp [node?, root] at h

/-- Rewriting one more file. -/
theorem set_overlay (h : d.node? here = some (.file old)) (new : ByteArray) :
    (d.overlay bytes).set here (.file new) =
      d.overlay (Function.update bytes here (some new)) := by
  have listed : ((d.overlay bytes).nodes.lookup here).isSome = true := by
    rw [node?, if_neg (ne_root_of_file h)] at h
    simp [lookup_overlay, h]
  rw [set, if_pos listed]
  simp only [overlay, List.map_map]
  refine congrArg Disk.mk (List.map_congr_left fun entry _ => ?_)
  by_cases same : entry.1 = here
  · simp [same]
  · simp [same]

namespace FilesOnly

variable (h : d.FilesOnly bytes)
include h

theorem node?_overlay (here : String) :
    (d.overlay bytes).node? here = ((bytes here).map .file).or (d.node? here) := by
  by_cases root : here = "/"
  · have none : bytes here = none := by
      refine Option.eq_none_iff_forall_ne_some.mpr fun new given => ?_
      obtain ⟨old, file⟩ := h here new given
      exact ne_root_of_file file root
    simp [node?, root, root ▸ none]
  · rw [node?, if_neg root, lookup_overlay]
    cases given : bytes here with
    | none => simp [node?, root]
    | some new =>
      obtain ⟨old, file⟩ := h here new given
      rw [node?, if_neg root] at file
      simp [file]

/-- A file stays one, and no other place becomes one. -/
theorem file_of_overlay (file : (d.overlay bytes).node? here = some (.file new)) :
    ∃ old, d.node? here = some (.file old) := by
  rw [h.node?_overlay] at file
  cases given : bytes here with
  | none => exact ⟨new, by simpa [given] using file⟩
  | some other => exact h here other given

theorem rewrites : d.Rewrites (fun here => bytes here ≠ none) (d.overlay bytes) where
  listed entry there := by
    obtain ⟨before, listed, rfl⟩ := List.mem_map.mp there
    cases given : bytes before.1 with
    | none => exact .inl (by simpa [given] using listed)
    | some new => exact .inr (by simp)
  found path := by
    rw [h.node?_overlay]
    cases given : bytes path with
    | none => exact .inl rfl
    | some new =>
      obtain ⟨old, file⟩ := h path new given
      exact .inr ⟨nofun, old, new, file, rfl⟩

/-- A path is read as before, unless its file has other bytes. -/
theorem read_overlay (located : d.locate path = .ok here) :
    (d.overlay bytes).read path =
      ((bytes here).map .ok).getD (d.read path) := by
  simp only [read, h.rewrites.locate_eq, located, bind, Except.bind, h.node?_overlay]
  cases bytes here <;> rfl

theorem read_overlay_of_error {fault : DiskFault} (located : d.locate path = .error fault) :
    (d.overlay bytes).read path = d.read path := by
  simp only [read, h.rewrites.locate_eq, located, bind, Except.bind]

/-- A path reads as before when nothing is put where it leads. -/
theorem read_overlay_of_none
    (away : ∀ here, d.locate path = .ok here → bytes here = none) :
    (d.overlay bytes).read path = d.read path := by
  cases located : d.locate path with
  | error fault => exact h.read_overlay_of_error located
  | ok here =>
    rw [h.read_overlay located, away here located]
    rfl

/-- A file that can be read is rewritten in place. -/
theorem write_overlay (located : d.locate path = .ok here)
    (file : d.node? here = some (.file old)) (new : ByteArray) :
    (d.overlay bytes).write path new =
      .ok (d.overlay (Function.update bytes here (some new))) := by
  refine write_eq_ok_iff.mpr ⟨here, ?_, ?_, (set_overlay file new).symm⟩
  · rw [h.rewrites.locate_eq, located]
  · rw [h.node?_overlay, file]
    cases bytes here <;> simp

theorem update (file : d.node? here = some (.file old)) (new : Option ByteArray) :
    d.FilesOnly (Function.update bytes here new) := by
  intro other newer given
  by_cases same : other = here
  · exact ⟨old, same ▸ file⟩
  · rw [Function.update_of_ne same] at given
    exact h other newer given

end FilesOnly

theorem filesOnly_none (d : Disk) : d.FilesOnly fun _ => none :=
  nofun

end ModuleRepair.Disk
