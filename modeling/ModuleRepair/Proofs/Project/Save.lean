import ModuleRepair.Proofs.Disk.Filling
import ModuleRepair.Proofs.Project.Keys
import ModuleRepair.Proofs.Project.SamePaths

/-!
# Writing a project back

Each modified module is written on its own. One that cannot be opened for writing is reported and
stays modified, and the others are written all the same: what can be opened does not depend on what
has been written before (`foldl_saveOne`). So a save leaves just the modules behind that failed, and
the next one has nothing to write (`save_after`).
-/
namespace ModuleRepair

open ModuleRepair.Path ModuleRepair.Script

/-- The module as it is once its text has been written. -/
def SourceFile.written (f : SourceFile) : SourceFile :=
  { f with saved := f.text }

theorem SourceFile.isModified_written (f : SourceFile) : f.written.isModified = false := by
  simp [isModified, written]

/-! ## The disk -/

namespace Disk

/-- The disk after modules have been written one after another, each with its text. -/
def writeAll (d : Disk) (fs : List SourceFile) : Except DiskFault Disk :=
  fs.foldlM (fun d f => d.write f.path f.text.toUTF8) d

theorem writeAll_cons {d d' : Disk} {f : SourceFile} (fs : List SourceFile)
    (written : d.write f.path f.text.toUTF8 = .ok d') :
    d.writeAll (f :: fs) = d'.writeAll fs := by
  rw [writeAll, List.foldlM_cons, written]
  rfl

/-- Only the places of the modules are filled, and the last module of each place is the one that can
be read there. -/
theorem writeAll_fills {d d' : Disk} {locked : String → Bool} {fs : List SourceFile}
    (open_all : ∀ f ∈ fs, d.opens locked f.path = true) (ordered : fs.Pairwise (·.path < ·.path))
    (ran : d.writeAll fs = .ok d') :
    d.Fills (fun here => ∃ f ∈ fs, d.locate f.path = .ok here) d' ∧
      ∀ f ∈ fs, (∀ g ∈ fs, d.locate g.path = d.locate f.path → g.path ≤ f.path) →
        d'.read f.path = .ok f.text.toUTF8 := by
  induction fs generalizing d with
  | nil =>
    obtain rfl := Except.ok.inj ran
    exact ⟨.refl d, nofun⟩
  | cons f fs ih =>
    obtain ⟨first, rest⟩ := List.forall_mem_cons.mp open_all
    obtain ⟨before, ordered⟩ := List.pairwise_cons.mp ordered
    obtain ⟨here, d₁, located, written, -, fills, holds⟩ := write_of_opens first f.text.toUTF8
    rw [writeAll_cons fs written] at ran
    obtain ⟨onward, reads⟩ :=
      ih (fun g hg => (fills.opens_eq locked g.path).trans (rest g hg)) ordered ran
    have whole : d.Fills (fun here => ∃ g ∈ f :: fs, d.locate g.path = .ok here) d' := by
      refine (fills.mono fun _ same => ?_).trans (onward.mono fun _ ⟨g, hg, there⟩ => ?_)
      · exact ⟨f, List.mem_cons_self, same ▸ located⟩
      · exact ⟨g, List.mem_cons_of_mem f hg, fills.locate_iff.mp there⟩
    refine ⟨whole, List.forall_mem_cons.mpr ⟨fun last => ?_, fun g hg last => ?_⟩⟩
    · -- No later module comes to this place, so that the first text stays.
      refine read_eq_ok.mpr ⟨here, whole.locate_iff.mpr located, ?_⟩
      rw [← holds]
      refine (onward here).resolve_right fun ⟨⟨g, hg, there⟩, _⟩ => ?_
      have alike := (fills.locate_iff.mp there).trans located.symm
      exact absurd (before g hg) (String.not_lt.mpr (last g (List.mem_cons_of_mem f hg) alike))
    · refine reads g hg fun k hk alike => last k (List.mem_cons_of_mem f hk) ?_
      obtain ⟨there, located, -⟩ := opens_iff.mp (rest g hg)
      rw [fills.locate_iff.mpr located] at alike
      rw [located, fills.locate_iff.mp alike]

end Disk

namespace Project

variable {d : Disk} {locked : String → Bool} {p : Project} {fs : List SourceFile}

/-! ## One module and all of them -/

/-- What writing modules back leaves: those that can be opened are written in turn, and the others
are reported. -/
structure Saves (locked : String → Bool) (s : Saved) (fs : List SourceFile) (r : Saved) :
    Prop where
  disk : s.disk.writeAll (fs.filter fun f => s.disk.opens locked f.path) = .ok r.disk
  project : r.project = (fs.filter fun f => s.disk.opens locked f.path).foldl
    (fun p f => p.put f.written) s.project
  written : r.written = s.written ++ (fs.filter fun f => s.disk.opens locked f.path).map (·.path)
  notices : r.notices = s.notices ++
    (fs.filter fun f => !s.disk.opens locked f.path).map fun f => .saveFailed f.path

/-- Whether a module can be opened is the same before and after the others are written. -/
theorem foldl_saveOne (locked : String → Bool) (fs : List SourceFile) (s : Saved) :
    Saves locked s fs (fs.foldl (saveOne locked) s) := by
  induction fs generalizing s with
  | nil => exact ⟨rfl, rfl, by simp, by simp⟩
  | cons f fs ih =>
    rw [List.foldl_cons]
    by_cases able : s.disk.opens locked f.path = true
    · obtain ⟨here, d', -, written, unlocked, fills, -⟩ := Disk.write_of_opens able f.text.toUTF8
      have one : saveOne locked s f = { s with
          disk := d', project := s.project.put f.written, written := s.written ++ [f.path] } := by
        rw [saveOne, unlocked]
        rfl
      have due : (f :: fs).filter (fun f => s.disk.opens locked f.path) =
          f :: fs.filter fun f => s.disk.opens locked f.path := List.filter_cons_of_pos able
      have failing : (f :: fs).filter (fun f => !s.disk.opens locked f.path) =
          fs.filter fun f => !s.disk.opens locked f.path := List.filter_cons_of_neg (by simp [able])
      obtain ⟨disk, project, listed, notices⟩ := ih (saveOne locked s f)
      simp only [one, fills.opens_eq] at disk project listed notices
      rw [one]
      refine ⟨?_, ?_, ?_, ?_⟩
      · rw [due, Disk.writeAll_cons _ written, disk]
      · rw [due, List.foldl_cons, project]
      · rw [due, listed, List.map_cons, List.append_assoc, List.singleton_append]
      · rw [failing, notices]
    · have unable := Bool.eq_false_iff.mpr able
      have one : saveOne locked s f =
          { s with notices := s.notices ++ [.saveFailed f.path] } := by
        rw [saveOne, Disk.writeUnlocked_eq_none unable]
      have due : (f :: fs).filter (fun f => s.disk.opens locked f.path) =
          fs.filter fun f => s.disk.opens locked f.path := List.filter_cons_of_neg able
      have failing : (f :: fs).filter (fun f => !s.disk.opens locked f.path) =
          f :: fs.filter fun f => !s.disk.opens locked f.path :=
        List.filter_cons_of_pos (by simp [unable])
      obtain ⟨disk, project, listed, notices⟩ := ih (saveOne locked s f)
      simp only [one] at disk project listed notices
      rw [one]
      refine ⟨?_, ?_, ?_, ?_⟩
      · rw [due, disk]
      · rw [due, project]
      · rw [due, listed]
      · rw [failing, notices, List.map_cons, List.append_assoc, List.singleton_append]

theorem saves_save (d : Disk) (p : Project) (locked : String → Bool) :
    Saves locked ⟨d, p, [], []⟩ p.modified (p.save d locked) :=
  foldl_saveOne locked p.modified _

/-! ## The index -/

/-- Putting written modules back one by one settles just these. -/
theorem foldl_put_written (h : p.Ordered) (there : ∀ f ∈ fs, f ∈ p.files)
    (ordered : fs.Pairwise (·.path < ·.path)) :
    fs.foldl (fun p f => p.put f.written) p =
      p.mapFiles fun k => if k ∈ fs then k.written else k := by
  induction fs generalizing p with
  | nil =>
    refine (mapFiles_eq_self fun k _ => ?_).symm
    simp
  | cons f fs ih =>
    obtain ⟨hf, there⟩ := List.forall_mem_cons.mp there
    obtain ⟨before, ordered⟩ := List.pairwise_cons.mp ordered
    have put := h.put_eq_mapFiles (g := f.written) hf rfl
    rw [List.foldl_cons, ih (h.put f.written) (fun g hg => ?_) ordered, put, mapFiles_mapFiles]
    · refine mapFiles_congr fun k hk => ?_
      by_cases same : k.path = f.path
      · obtain rfl := h.eq_of_path hf hk same
        have behind : k.written ∉ fs := by
          intro again
          have earlier : k.path < k.path := before k.written again
          exact String.lt_irrefl _ earlier
        simp [behind]
      · have other : k ≠ f := fun same' => same (congrArg SourceFile.path same')
        simp [same, other]
    · rw [put]
      refine List.mem_map.mpr ⟨g, there g hg, if_neg ?_⟩
      exact (String.ne_of_lt (before g hg)).symm

theorem Ordered.modified (h : p.Ordered) : p.modified.Pairwise (·.path < ·.path) :=
  List.Pairwise.filter _ h

/-- A save settles the modified modules that can be opened, and leaves the others as they are. -/
theorem Ordered.project_save (h : p.Ordered) (d : Disk) (locked : String → Bool) :
    (p.save d locked).project = p.mapFiles fun f =>
      if f.isModified && d.opens locked f.path then f.written else f := by
  let due := p.modified.filter fun f => d.opens locked f.path
  have there (f : SourceFile) : f ∈ due ↔
      f ∈ p.files ∧ f.isModified = true ∧ d.opens locked f.path = true := by
    rw [List.mem_filter, Project.modified, List.mem_filter, and_assoc]
  have put : (p.save d locked).project = due.foldl (fun p f => p.put f.written) p :=
    (saves_save d p locked).project
  rw [put, foldl_put_written h (fun f hf => ((there f).mp hf).1)
    (List.Pairwise.filter _ h.modified)]
  refine mapFiles_congr fun f hf => ?_
  simp [there, hf]

theorem Ordered.modified_save (h : p.Ordered) (d : Disk) (locked : String → Bool) :
    (p.save d locked).project.modified = p.modified.filter fun f => !d.opens locked f.path := by
  let settle (f : SourceFile) : SourceFile :=
    if f.isModified && d.opens locked f.path then f.written else f
  have left : (fun f : SourceFile => f.isModified) ∘ settle =
      fun f => !d.opens locked f.path && f.isModified := by
    funext f
    cases able : d.opens locked f.path <;> cases modified : f.isModified <;>
      simp [settle, able, modified, SourceFile.isModified_written]
  have kept (f : SourceFile) (unable : d.opens locked f.path = false) : settle f = f := by
    simp [settle, unable]
  have settled : (p.save d locked).project.modified =
      (p.files.map settle).filter (·.isModified) := by
    rw [h.project_save]
    rfl
  rw [settled, List.filter_map, left, Project.modified, List.filter_filter]
  refine (List.map_congr_left fun f hf => ?_).trans (List.map_id _)
  refine kept f ?_
  simpa using (Bool.and_eq_true_iff.mp (List.mem_filter.mp hf).2).1

/-! ## The disk behind a save -/

/-- Only places of modified modules are filled that can be opened, and the last text of each place
can be read back. -/
theorem Ordered.fills_save (h : p.Ordered) (d : Disk) (locked : String → Bool) :
    let due := p.modified.filter fun f => d.opens locked f.path
    d.Fills (fun here => ∃ f ∈ due, d.locate f.path = .ok here) (p.save d locked).disk ∧
      ∀ f ∈ due, (∀ g ∈ due, d.locate g.path = d.locate f.path → g.path ≤ f.path) →
        (p.save d locked).disk.read f.path = .ok f.text.toUTF8 :=
  Disk.writeAll_fills (fun _ hf => (List.mem_filter.mp hf).2) (List.Pairwise.filter _ h.modified)
    (saves_save d p locked).disk

/-- No module that is written lies where one lies that cannot be opened. -/
theorem Ordered.find?_save (h : p.Ordered) {path : String} (unable : d.opens locked path = false) :
    (p.save d locked).disk.find? path = d.find? path := by
  refine (h.fills_save d locked).1.find?_eq fun here located ⟨g, hg, there⟩ => ?_
  obtain ⟨here', there', free⟩ := Disk.opens_iff.mp (List.mem_filter.mp hg).2
  obtain rfl := Except.ok.inj (there.symm.trans there')
  have opened := Disk.opens_iff.mpr ⟨here, located, free⟩
  rw [unable] at opened
  cases opened

/-- What a save leaves modified cannot be opened the next time either. -/
theorem Ordered.save_save (h : p.Ordered) (d : Disk) (locked : String → Bool) :
    let saved := p.save d locked
    let again := saved.project.save saved.disk locked
    again.written = [] ∧ again.disk = saved.disk ∧ again.project = saved.project := by
  intro saved again
  have none : (saved.project.modified.filter fun f => saved.disk.opens locked f.path) = [] := by
    rw [h.modified_save d locked]
    refine List.filter_eq_nil_iff.mpr fun f hf => ?_
    have unable : d.opens locked f.path = false := by simpa using (List.mem_filter.mp hf).2
    rw [(h.fills_save d locked).1.opens_eq, unable]
    exact Bool.false_ne_true
  obtain ⟨disk, project, written, -⟩ := saves_save saved.disk saved.project locked
  simp only [none] at disk project written
  exact ⟨written, (Except.ok.inj disk).symm, project⟩

/-- Saving isolates failures, whatever was done with the index before. The modified modules that can
be opened for writing are written, in the order of their paths and each with its text; a text that
no later module of the same place replaces can be read back. No other place changes. The modules that
cannot be opened are reported and stay modified, and what lies under their paths stays. Saving again
writes nothing as long as the same places are locked. -/
theorem save_after (directory sourceRoot mark : String) (mode : IndexMode) (actions : List Action)
    (d : Disk) (locked : String → Bool) :
    let p := (empty directory sourceRoot mark mode).after actions
    let due := p.modified.filter fun f => d.opens locked f.path
    let failing := p.modified.filter fun f => !d.opens locked f.path
    let saved := p.save d locked
    let again := saved.project.save saved.disk locked
    (saved.written = due.map (·.path) ∧ saved.written.Pairwise (· < ·)) ∧
    (d.writeAll due = .ok saved.disk ∧
      ∀ f ∈ due, (∀ g ∈ due, d.locate g.path = d.locate f.path → g.path ≤ f.path) →
        saved.disk.read f.path = .ok f.text.toUTF8) ∧
    (∀ here, (∀ f ∈ due, d.locate f.path ≠ .ok here) →
      saved.disk.node? here = d.node? here) ∧
    (saved.project.modified = failing ∧ saved.notices = failing.map (fun f => .saveFailed f.path) ∧
      ∀ f ∈ failing, saved.disk.find? f.path = d.find? f.path) ∧
    (saved.project = p.mapFiles fun f =>
      if f.isModified && d.opens locked f.path then f.written else f) ∧
    (again.written = [] ∧ again.disk = saved.disk ∧ again.project = saved.project) := by
  intro p due failing saved again
  have ordered : p.Ordered :=
    (keyed_after (keyed_empty directory sourceRoot mark mode) actions).ordered
  obtain ⟨disk, -, written, notices⟩ := saves_save d p locked
  obtain ⟨fills, reads⟩ := ordered.fills_save d locked
  have listed : saved.written = due.map (·.path) := written
  refine ⟨⟨listed, ?_⟩, ⟨disk, reads⟩, fun here outside => ?_,
    ⟨ordered.modified_save d locked, notices, fun f hf => ?_⟩, ordered.project_save d locked,
    ordered.save_save d locked⟩
  · rw [listed]
    exact List.pairwise_map.mpr (List.Pairwise.filter _ ordered.modified)
  · exact (fills here).resolve_right fun ⟨⟨f, hf, located⟩, _⟩ => outside f hf located
  · refine ordered.find?_save ?_
    simpa using (List.mem_filter.mp hf).2

end Project

end ModuleRepair
