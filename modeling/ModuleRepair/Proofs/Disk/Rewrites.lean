import ModuleRepair.Proofs.Disk
import ModuleRepair.Proofs.Path.Last
import ModuleRepair.Project.Storage

/-!
# Files that are rewritten in place

A file that can be read is written where it is: nothing is made or lost, so that every path leads
where it led before. `Rewrites` collects what a number of such writes leave.
-/
namespace ModuleRepair

open ModuleRepair.Text ModuleRepair.Path ModuleRepair.Script

namespace Disk

/-- Some files may have other bytes, and that is all. -/
structure Rewrites (may : String → Prop) (d d' : Disk) : Prop where
  listed : ∀ entry ∈ d'.nodes, entry ∈ d.nodes ∨ may entry.1
  found : ∀ path, d'.node? path = d.node? path ∨
    may path ∧ ∃ old new, d.node? path = some (.file old) ∧ d'.node? path = some (.file new)

variable {may may' : String → Prop} {d d' d'' : Disk} {path here : String} {old new : ByteArray}

namespace Rewrites

theorem refl (d : Disk) : Rewrites may d d :=
  ⟨fun _ h => .inl h, fun _ => .inl rfl⟩

theorem trans (h : Rewrites may d d') (h' : Rewrites may d' d'') : Rewrites may d d'' where
  listed entry there := (h'.listed entry there).elim (h.listed entry) .inr
  found path := by
    rcases h.found path with same | ⟨allowed, a, b, before, between⟩
    · rw [← same]
      exact h'.found path
    · rcases h'.found path with same | ⟨-, -, c, -, after⟩
      · exact .inr ⟨allowed, a, b, before, same.trans between⟩
      · exact .inr ⟨allowed, a, c, before, after⟩

theorem mono (h : Rewrites may d d') (more : ∀ path, may path → may' path) :
    Rewrites may' d d' where
  listed entry there := (h.listed entry there).imp_right (more entry.1)
  found path := (h.found path).imp_right fun ⟨allowed, files⟩ => ⟨more path allowed, files⟩

theorem of_ne (h : Rewrites may d d') (ne : d'.node? path ≠ d.node? path) : may path :=
  ((h.found path).resolve_left ne).1

theorem none_iff (h : Rewrites may d d') : d'.node? path = none ↔ d.node? path = none := by
  rcases h.found path with same | ⟨-, old, new, before, after⟩
  · rw [same]
  · simp [before, after]

theorem directory_iff (h : Rewrites may d d') :
    d'.node? path = some .directory ↔ d.node? path = some .directory := by
  rcases h.found path with same | ⟨-, old, new, before, after⟩
  · rw [same]
  · simp [before, after]

theorem follow_eq (h : Rewrites may d d') (segments : List Segment) (here : String) :
    d'.follow segments here = d.follow segments here := by
  induction segments generalizing here with
  | nil => rfl
  | cons s rest ih =>
    rcases h.found here with same | ⟨-, old, new, before, after⟩
    · simp only [follow, same, ih]
    · simp only [follow, before, after]

theorem locate_eq (h : Rewrites may d d') (path : String) : d'.locate path = d.locate path := by
  unfold locate
  split
  · rfl
  · exact h.follow_eq _ _

end Rewrites

theorem read_eq_ok : d.read path = .ok old ↔
    ∃ here, d.locate path = .ok here ∧ d.node? here = some (.file old) := by
  unfold read
  cases d.locate path with
  | error fault => simp [bind, Except.bind]
  | ok here =>
    rcases node : d.node? here with _ | ⟨bytes⟩ | _ <;>
      simp [bind, Except.bind, pure, Except.pure, node, throw, throwThe, MonadExceptOf.throw]

theorem Rewrites.read (h : Rewrites may d d') (readable : d.read path = .ok old) :
    ∃ new, d'.read path = .ok new := by
  obtain ⟨here, located, node⟩ := read_eq_ok.mp readable
  rcases h.found here with same | ⟨-, -, new, -, after⟩
  · exact ⟨old, read_eq_ok.mpr ⟨here, (h.locate_eq path).trans located, same.trans node⟩⟩
  · exact ⟨new, read_eq_ok.mpr ⟨here, (h.locate_eq path).trans located, after⟩⟩

/-! ## Writing -/

theorem rewrites_set (h : d.node? here = some (.file old)) (new : ByteArray) :
    Rewrites (· = here) d (d.set here (.file new)) := by
  have notRoot : here ≠ "/" := fun root => by simp [node?, root] at h
  have some : (d.nodes.lookup here).isSome = true := by
    rw [node?, if_neg notRoot] at h
    simp [h]
  have set_eq : d.set here (.file new) =
      ⟨d.nodes.map fun entry => if entry.1 = here then (here, .file new) else entry⟩ := by
    rw [set, if_pos some]
  rw [set_eq]
  refine ⟨fun entry there => ?_, fun path => ?_⟩
  · obtain ⟨before, listed, rfl⟩ := List.mem_map.mp there
    split
    · exact .inr rfl
    · exact .inl listed
  · rw [← set_eq, node?_set notRoot]
    split
    · next same => exact .inr ⟨same, old, new, same ▸ h, rfl⟩
    · exact .inl rfl

/-- Where a file can be read, it can be written. -/
theorem write_rewrites (readable : d.read path = .ok old) (new : ByteArray) :
    ∃ here d', d.locate path = .ok here ∧ d.write path new = .ok d' ∧
      Rewrites (· = here) d d' := by
  obtain ⟨here, located, node⟩ := read_eq_ok.mp readable
  refine ⟨here, d.set here (.file new), located, ?_, rewrites_set node new⟩
  simp [write, located, node, bind, Except.bind, pure, Except.pure]

/-- A module leads to a module. -/
theorem isSupported_locate (h : isSupported path = true) (located : d.locate path = .ok here) :
    isSupported here = true := by
  have name := isName_of_isSupported h
  obtain ⟨above, cons⟩ := names_eq_cons name
  rw [(locate_ok located).1, cons, isSupported_congr (last_ofNames name.noSlash above), h]

end Disk

end ModuleRepair
