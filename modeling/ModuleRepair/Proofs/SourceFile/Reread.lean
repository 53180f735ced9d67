import ModuleRepair.Proofs.Import.Binding
import ModuleRepair.Proofs.Script.Parsed
import ModuleRepair.SourceFile.Edit

/-!
# Reading a module again after an edit

The passes edit the text of a module and then read it again. An edit of one import statement is
meant to change the list of imports in the same way; `Rereads` says of a set of modules that this is
how they are read.
-/
namespace ModuleRepair

open ModuleRepair.Script

/-- A change to one import statement. -/
inductive Edit where
  | remove (position : Nat)
  | replace (position : Nat) (new : List Import)
  | add (new : Import)

namespace Edit

/-- What the edit makes of a list of imports. -/
def imports : Edit → List Import → List Import
  | remove i, ds => ds.take i ++ ds.drop (i + 1)
  | replace i new, ds => ds.take i ++ new ++ ds.drop (i + 1)
  | add d, ds => ds ++ [d]

/-- The imports in front of the edit. -/
def front : Edit → List Import → List Import
  | remove i, ds => ds.take i
  | replace i _, ds => ds.take i
  | add _, ds => ds

/-- What the edit makes of a module. -/
def file (f : SourceFile) (o : Outline) : Edit → Except LanguageError SourceFile
  | remove i => return (o.imports[i]?.map f.removeImport).getD f
  | replace i new => return (o.imports[i]?.map (f.replaceImport · new)).getD f
  | add d => f.addImport d

end Edit

namespace SourceFile

/-- The module is in a set, and read without errors. Its imports are the given ones, some of them at
given places. -/
def ReadAs (files : SourceFile → Prop) (inPlace ds : List Import) (f : SourceFile) : Prop :=
  files f ∧ ∃ o, f.read = .ok (some o) ∧ o.imports.map (·.normal) = ds.map (·.normal) ∧
    inPlace <+: o.imports

/-- Whenever an edit is allowed in a module of the set, the edited module is read with its imports
edited in the same way, and those in front of the edit are where they were. -/
def Rereads (allowed : List Import → Edit → Prop) (files : SourceFile → Prop) : Prop :=
  ∀ f o e f', files f → f.read = .ok (some o) → allowed o.imports e → e.file f o = .ok f' →
    ReadAs files (e.front o.imports) (e.imports o.imports) f'

theorem split_of_getElem? {α : Type} {ds : List α} {i : Nat} {d : α} (h : ds[i]? = some d) :
    ∃ front back, ds = front ++ d :: back ∧ front.length = i := by
  obtain ⟨inside, rfl⟩ := List.getElem?_eq_some_iff.mp h
  exact ⟨ds.take i, ds.drop (i + 1), by simp, by simp; omega⟩

theorem read_of_outline? {f : SourceFile} {l : Language} {o : Option Outline}
    (language : Language.ofPath f.path = .ok l) (h : outline? l f.text = o) : f.read = .ok o := by
  rw [SourceFile.read, language]
  exact congrArg Except.ok h

/-- A file with a language has an outline, which is empty when the file is broken. -/
theorem outline_eq_ok {f : SourceFile} {l : Language} (language : Language.ofPath f.path = .ok l) :
    f.outline = .ok ((outline? l f.text).getD {}) := by
  simp only [outline, read_of_outline? language rfl, bind, Except.bind]
  rfl

theorem language_of_outline {f : SourceFile} {o : Outline} (ho : f.outline = .ok o) :
    ∃ l, Language.ofPath f.path = .ok l := by
  cases language : Language.ofPath f.path with
  | ok l => exact ⟨l, rfl⟩
  | error e =>
    simp only [outline, read, language, bind, Except.bind] at ho
    cases ho

theorem outline_of_read {f : SourceFile} {o : Outline} (h : f.read = .ok (some o)) :
    f.outline = .ok o := by
  simp only [outline, h]
  rfl

/-- The outline of a file; nothing within where the file is broken or in no language. -/
@[irreducible]
def outlineD (f : SourceFile) : Outline :=
  match f.outline with
  | .ok o => o
  | .error _ => {}

theorem outlineD_of_read {f : SourceFile} {o : Outline} (h : f.read = .ok (some o)) :
    f.outlineD = o := by
  unfold outlineD
  rw [outline_of_read h]

/-- A file without an error is read as its outline, and a broken one has no imports. -/
theorem read_or_empty {f : SourceFile} {o : Outline} (h : f.outline = .ok o) :
    f.read = .ok (some o) ∨ o.imports = [] := by
  simp only [outline, bind, Except.bind] at h
  split at h
  · cases h
  · next read? read =>
    cases h
    cases read? with
    | none => exact .inr rfl
    | some o => exact .inl read

theorem outline?_of_read {f : SourceFile} {o : Outline} (h : f.read = .ok (some o)) :
    ∃ l, outline? l f.text = some o := by
  simp only [SourceFile.read, bind, Except.bind] at h
  split at h
  · cases h
  · exact ⟨_, Except.ok.inj h⟩

theorem parsed_of_read {f : SourceFile} {o : Outline} (h : f.read = .ok (some o)) :
    ∀ d ∈ o.imports, d.Parsed := by
  obtain ⟨l, read⟩ := outline?_of_read h
  exact parsed_of_outline? read

variable {allowed : List Import → Edit → Prop} {files : SourceFile → Prop} {f : SourceFile}
  {o : Outline} {front back : List Import} {d : Import}

theorem ReadAs.bindings {inPlace ds : List Import} (h : ReadAs files inPlace ds f) :
    ∃ o, f.read = .ok (some o) ∧ bindingsOf o.imports = bindingsOf ds := by
  obtain ⟨-, o, hr, imports, -⟩ := h
  refine ⟨o, hr, ?_⟩
  rw [← bindingsOf_normal, imports, bindingsOf_normal]

theorem Rereads.removed (h : Rereads allowed files) (hf : files f) (hr : f.read = .ok (some o))
    (split : o.imports = front ++ d :: back) (may : allowed o.imports (.remove front.length)) :
    ReadAs files front (front ++ back) (f.removeImport d) := by
  have edited := h f o _ _ hf hr may (by simp only [Edit.file, split]; rfl)
  simpa [Edit.front, Edit.imports, split] using edited

theorem Rereads.replaced (h : Rereads allowed files) (hf : files f) (hr : f.read = .ok (some o))
    (split : o.imports = front ++ d :: back) {new : List Import}
    (may : allowed o.imports (.replace front.length new)) :
    ReadAs files front (front ++ new ++ back) (f.replaceImport d new) := by
  have edited := h f o _ _ hf hr may (by simp only [Edit.file, split]; rfl)
  simpa [Edit.front, Edit.imports, split] using edited

/-- An import can be added to every file that has a language. -/
theorem exists_addImport (ho : f.outline = .ok o) (d : Import) : ∃ f', f.addImport d = .ok f' := by
  simp only [addImport, ho, bind, Except.bind]
  split
  · exact ⟨_, rfl⟩
  · split <;> exact ⟨_, rfl⟩

theorem addImport_eq_ok (hr : f.read = .ok (some o)) (d : Import) :
    ∃ f', f.addImport d = .ok f' :=
  exists_addImport (outline_of_read hr) d

theorem addImport_path {f' : SourceFile} (h : f.addImport d = .ok f') :
    f'.path = f.path ∧ f'.root = f.root := by
  simp only [addImport, bind, Except.bind] at h
  split at h
  · cases h
  · split at h
    · cases h; exact ⟨rfl, rfl⟩
    · split at h <;> cases h <;> exact ⟨rfl, rfl⟩

theorem Rereads.added (h : Rereads allowed files) (hf : files f) (hr : f.read = .ok (some o))
    (may : allowed o.imports (.add d)) :
    ∃ f', f.addImport d = .ok f' ∧ ReadAs files o.imports (o.imports ++ [d]) f' := by
  obtain ⟨f', added⟩ := addImport_eq_ok hr d
  exact ⟨f', added, h f o _ f' hf hr may added⟩

end SourceFile

end ModuleRepair
