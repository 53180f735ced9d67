import Mathlib.Logic.Relation
import ModuleRepair.Proofs.SourceFile.Reread

/-!
# Edits one after the other

A module is read again before each edit of an import. `Edited` says that a module comes from another
one by allowed edits, however it is read in between.
-/
namespace ModuleRepair

open ModuleRepair.Script Relation

/-- An edit keeps the module where it is. -/
theorem Edit.file_path {e : Edit} {f g : SourceFile} {o : Outline} (h : e.file f o = .ok g) :
    g.path = f.path ∧ g.root = f.root := by
  cases e with
  | remove i =>
    obtain rfl := Except.ok.inj h
    cases o.imports[i]? <;> exact ⟨rfl, rfl⟩
  | replace i new =>
    obtain rfl := Except.ok.inj h
    cases o.imports[i]? <;> exact ⟨rfl, rfl⟩
  | add d => exact SourceFile.addImport_path h

namespace SourceFile

/-- One allowed edit of a module. -/
def EditStep (allowed : List Import → Edit → Prop) (f g : SourceFile) : Prop :=
  ∃ o e, f.outline = .ok o ∧ allowed o.imports e ∧ e.file f o = .ok g

/-- Allowed edits of a module, one after the other. -/
abbrev Edited (allowed : List Import → Edit → Prop) : SourceFile → SourceFile → Prop :=
  ReflTransGen (EditStep allowed)

variable {allowed : List Import → Edit → Prop} {f g : SourceFile} {o : Outline} {d : Import}

theorem EditStep.replace {new : List Import} (ho : f.outline = .ok o) (hd : d ∈ o.imports)
    (may : ∀ i, o.imports[i]? = some d → allowed o.imports (.replace i new)) :
    EditStep allowed f (f.replaceImport d new) := by
  obtain ⟨i, there⟩ := List.getElem?_of_mem hd
  exact ⟨o, .replace i new, ho, may i there, by simp only [Edit.file, there]; rfl⟩

theorem EditStep.add (ho : f.outline = .ok o) (may : allowed o.imports (.add d))
    (added : f.addImport d = .ok g) : EditStep allowed f g :=
  ⟨o, .add d, ho, may, added⟩

theorem Edited.path (h : Edited allowed f g) : g.path = f.path ∧ g.root = f.root := by
  induction h with
  | refl => exact ⟨rfl, rfl⟩
  | tail _ step ih =>
    obtain ⟨o, e, -, -, he⟩ := step
    obtain ⟨path, root⟩ := Edit.file_path he
    exact ⟨path.trans ih.1, root.trans ih.2⟩

/-- Where edits are reread, edited modules stay in the set. -/
theorem Rereads.edited {files : SourceFile → Prop} (h : Rereads allowed files)
    (readable : ∀ f, files f → ∃ o, f.read = .ok (some o)) (hf : files f)
    (edits : Edited allowed f g) : files g := by
  induction edits with
  | refl => exact hf
  | @tail g k _ step ih =>
    obtain ⟨o, e, ho, may, he⟩ := step
    obtain ⟨o', hr⟩ := readable g ih
    obtain rfl : o' = o := by simpa [outline_of_read hr] using ho
    exact (h g o' e k ih hr may he).1

theorem Edited.specifier?_eq (h : Edited allowed f g) : g.specifier? = f.specifier? := by
  simp only [specifier?, h.path.1, h.path.2]

end SourceFile

end ModuleRepair
