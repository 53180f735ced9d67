import ModuleRepair.Proofs.Diagnostic.Applies
import ModuleRepair.Proofs.Project.Order

/-!
# One fix after the other

A call goes through the fixes of its diagnostics, each in the project that the one before has left.
What no edit undoes is there at the end if it was there at any time (`FixedBy.brings`).
-/
namespace ModuleRepair

open ModuleRepair.Script ModuleRepair.SourceFile Relation

namespace Repairs

/-- Two projects that differ at most in the module under a path. -/
structure Alike (path : String) (p q : Project) : Prop where
  directory_eq : q.directory = p.directory
  root_eq : q.root = p.root
  others : ∀ other ≠ path, q.find? other = p.find? other

/-- Whether a specifier does not lead from a module to itself. -/
def LeadsAway (p : Project) (path specifier : String) : Prop :=
  ∀ target, p.resolve? path specifier = some target → target.path ≠ path

variable {r : Repairs} {path : String} {p q : Project} {own : Option String}
  {files : SourceFile → Prop} {fixes all : List Fix} {fix : Fix} {f g : SourceFile}
  {o o' : Outline}

namespace Alike

theorem refl (path : String) (p : Project) : Alike path p p :=
  ⟨rfl, rfl, fun _ _ => rfl⟩

theorem trans {k : Project} (h : Alike path p q) (h' : Alike path q k) : Alike path p k where
  directory_eq := h'.directory_eq.trans h.directory_eq
  root_eq := h'.root_eq.trans h.root_eq
  others other ne := (h'.others other ne).trans (h.others other ne)

theorem put (p : Project) (named : f.path = path) : Alike path p (p.put f) where
  directory_eq := rfl
  root_eq := rfl
  others _ ne := Project.find?_put_of_ne p (named ▸ ne)

/-- A specifier that does not lead to the module itself leads to the same module. -/
theorem resolve?_eq (h : Alike path p q) (found : p.find? path = some f) {specifier : String}
    (away : LeadsAway p path specifier) :
    q.resolve? path specifier = p.resolve? path specifier := by
  have base : q.basePath? path specifier = p.basePath? path specifier := by
    simp only [Project.basePath?, Project.resolvePath, h.directory_eq, h.root_eq]
  unfold LeadsAway Project.resolve? at away
  unfold Project.resolve?
  rw [base]
  split
  · next base base_eq =>
    rw [base_eq] at away
    dsimp only at away
    generalize Project.candidates base = candidates at away ⊢
    induction candidates with
    | nil => rfl
    | cons candidate rest ih =>
      rw [List.findSome?_cons] at away ⊢
      rw [List.findSome?_cons]
      have other : candidate ≠ path := by
        rintro rfl
        rw [found] at away
        exact away f rfl (Project.path_of_find? found)
      rw [h.others candidate other]
      cases there : p.find? candidate with
      | some target => rfl
      | none =>
        rw [there] at away
        exact ih away
  · rfl

end Alike

/-! ## What lasts -/

/-- Whether fixes keep what holds of a list of imports. -/
structure Lasts (r : Repairs) (root : AliasRoot) (own : Option String) (fixes : List Fix)
    (kept : List Import → Prop) : Prop where
  normal : ∀ ds, kept (ds.map (·.normal)) ↔ kept ds
  edit : ∀ ds e, Repairing r root own fixes ds e → kept ds → kept (e.imports ds)

theorem Lasts.and {root : AliasRoot} {kept kept' : List Import → Prop}
    (h : Lasts r root own fixes kept) (h' : Lasts r root own fixes kept') :
    Lasts r root own fixes fun ds => kept ds ∧ kept' ds where
  normal ds := and_congr (h.normal ds) (h'.normal ds)
  edit ds e he held := ⟨h.edit ds e he held.1, h'.edit ds e he held.2⟩

theorem Lasts.edited {root : AliasRoot} {kept : List Import → Prop}
    (lasts : Lasts r root own fixes kept) (h : Rereads (Repairing r root own fixes) files)
    (hf : files f) (hr : f.read = .ok (some o))
    (edits : Edited (Repairing r root own fixes) f g) (held : kept o.imports) :
    files g ∧ ∃ o', g.read = .ok (some o') ∧ kept o'.imports := by
  induction edits with
  | refl => exact ⟨hf, o, hr, held⟩
  | tail _ edit ih =>
    obtain ⟨hg, o', hr', held'⟩ := ih
    obtain ⟨o'', e, ho, may, he⟩ := edit
    obtain rfl : o' = o'' := by simpa [outline_of_read hr'] using ho
    obtain ⟨hk, o'', hr'', imports, -⟩ := h _ _ _ _ hg hr' may he
    refine ⟨hk, o'', hr'', ?_⟩
    rw [← lasts.normal, imports, lasts.normal]
    exact lasts.edit _ _ may held'

theorem lasts_true (r : Repairs) (root : AliasRoot) (own : Option String) (fixes : List Fix) :
    Lasts r root own fixes fun _ => True :=
  ⟨fun _ => .rfl, fun _ _ _ held => held⟩

theorem eq_of_read (h : f.read = .ok (some o)) (h' : f.read = .ok (some o')) : o = o' :=
  Option.some.inj (Except.ok.inj (h.symm.trans h'))

/-! ## A list of fixes -/

/-- What fixes make of the module under a path one after the other, each in a project that differs
from a given one in this module only. -/
inductive FixedBy (r : Repairs) (path : String) (p : Project) :
    List Fix → SourceFile → SourceFile → Prop
  | nil {f : SourceFile} : FixedBy r path p [] f f
  | cons {q : Project} {fix : Fix} {fixes : List Fix} {f g : SourceFile} : Alike path p q →
      FixedBy r path p fixes (fileAfter f (r.apply q f fix)) g →
      FixedBy r path p (fix :: fixes) f g

theorem fileAfter_edited (there : fix ∈ all) :
    Edited (Repairing r p.root f.specifier? all) f (fileAfter f (r.apply p f fix)) := by
  cases applied : r.apply p f fix with
  | error e => exact .refl
  | ok result =>
    cases result with
    | none => exact .refl
    | some repaired => exact apply_edited there applied

theorem FixedBy.edited (h : FixedBy r path p fixes f g) (inside : ∀ fix ∈ fixes, fix ∈ all) :
    Edited (Repairing r p.root f.specifier? all) f g := by
  induction h with
  | nil => exact .refl
  | @cons q fix fixes f g alike _ ih =>
    obtain ⟨here, rest⟩ := List.forall_mem_cons.mp inside
    have first : Edited (Repairing r q.root f.specifier? all) f (fileAfter f (r.apply q f fix)) :=
      fileAfter_edited here
    have later := ih rest
    rw [first.specifier?_eq] at later
    rw [alike.root_eq] at first
    exact first.trans later

/-- A module under a path, of a given specifier, that is read with an outline. -/
structure Stands (files : SourceFile → Prop) (path : String) (own : Option String)
    (f : SourceFile) (o : Outline) : Prop where
  path_eq : f.path = path
  own_eq : f.specifier? = own
  mem : files f
  read : f.read = .ok (some o)

section

variable (h : Rereads (Repairing r p.root own all) files)
include h

/-- What lasts is there after a fix. -/
theorem Stands.fixed {kept : List Import → Prop} (lasts : Lasts r p.root own all kept)
    (stands : Stands files path own f o) (alike : Alike path p q) (there : fix ∈ all)
    (held : kept o.imports) :
    ∃ o', Stands files path own (fileAfter f (r.apply q f fix)) o' ∧ kept o'.imports := by
  have edited : Edited (Repairing r q.root f.specifier? all) f (fileAfter f (r.apply q f fix)) :=
    fileAfter_edited there
  rw [alike.root_eq, stands.own_eq] at edited
  obtain ⟨mem, o', read, held'⟩ := lasts.edited h stands.mem stands.read edited held
  exact ⟨o', ⟨edited.path.1.trans stands.path_eq, edited.specifier?_eq.trans stands.own_eq, mem,
    read⟩, held'⟩

/-- What one of the fixes brings about, and no edit undoes, holds at the end. It may rely on what
holds all the time. -/
theorem FixedBy.brings {always kept : List Import → Prop} (steady : Lasts r p.root own all always)
    (lasts : Lasts r p.root own all kept)
    (turn : ∀ q f o, Alike path p q → Stands files path own f o → always o.imports →
      ∃ o', (fileAfter f (r.apply q f fix)).read = .ok (some o') ∧ kept o'.imports)
    (fixed : FixedBy r path p fixes f g) (inside : ∀ fix ∈ fixes, fix ∈ all) (there : fix ∈ fixes)
    (stands : Stands files path own f o) (start : always o.imports) (hr' : g.read = .ok (some o')) :
    kept o'.imports := by
  induction fixed generalizing o with
  | nil => cases there
  | @cons q fix' fixes f g alike rest ih =>
    obtain ⟨here, behind⟩ := List.forall_mem_cons.mp inside
    obtain ⟨o₁, stands', still⟩ := stands.fixed h steady alike here start
    rcases List.mem_cons.mp there with rfl | later
    · obtain ⟨o₂, hr₂, held⟩ := turn q f o alike stands start
      have edits := rest.edited behind
      rw [stands'.own_eq] at edits
      obtain ⟨-, o'', hr'', held'⟩ := lasts.edited h stands'.mem hr₂ edits held
      exact eq_of_read hr'' hr' ▸ held'
    · exact ih behind later stands' still hr'

end

/-! ## The work -/

variable {w : Work}

/-- One diagnostic. -/
theorem fixOne_file (r : Repairs) (d : Diagnostic) (found : w.project.find? path = some f) :
    let w' := (((r.fixOne path d).orReport none (.diagnosticFailed d.code)).run w).2
    Alike path w.project w'.project ∧ w'.project.find? path =
      some (match Fix.classify? d.code d.message with
        | some fix => fileAfter f (r.apply w.project f fix)
        | none => f) := by
  dsimp only
  rw [fixOne_project, found]
  cases Fix.classify? d.code d.message with
  | none => exact ⟨.refl path w.project, found⟩
  | some fix =>
    dsimp only
    have edited := fileAfter_edited (r := r) (p := w.project) (f := f) (List.mem_singleton_self fix)
    have named : (fileAfter f (r.apply w.project f fix)).path = path :=
      edited.path.1.trans (Project.path_of_find? found)
    revert named
    rcases r.apply w.project f fix with e | _ | ⟨f', text⟩ <;> intro named
    · exact ⟨.refl path w.project, found⟩
    · exact ⟨.refl path w.project, found⟩
    · refine ⟨.put w.project named, ?_⟩
      dsimp only [fileAfter] at named ⊢
      rw [← named]
      exact Project.find?_put ..

theorem fixAll_fixedBy (r : Repairs) (diagnostics : List Diagnostic)
    (alike : Alike path p w.project) (found : w.project.find? path = some f) :
    let w' := ((diagnostics.filterMapM fun d =>
      (r.fixOne path d).orReport none (.diagnosticFailed d.code)).run w).2
    Alike path p w'.project ∧ ∃ g, w'.project.find? path = some g ∧
      FixedBy r path p (diagnostics.filterMap fun d => Fix.classify? d.code d.message) f g := by
  induction diagnostics generalizing w f with
  | nil => exact ⟨alike, f, found, .nil⟩
  | cons d diagnostics ih =>
    obtain ⟨step, here⟩ := fixOne_file r d found
    obtain ⟨alike', g, there, fixed⟩ := ih (alike.trans step) here
    rw [Step.filterMapM_cons_run]
    refine ⟨alike', g, there, ?_⟩
    rw [List.filterMap_cons]
    cases classified : Fix.classify? d.code d.message with
    | none =>
      rw [classified] at fixed
      exact fixed
    | some fix =>
      rw [classified] at fixed
      exact .cons alike fixed

theorem fixOne_nothing (r : Repairs) (d : Diagnostic) (found : w.project.find? path = some f) :
    let done := ((r.fixOne path d).orReport none (.diagnosticFailed d.code)).run w
    (done.1 = none ↔ ∀ fix ∈ Fix.classify? d.code d.message, ¬r.Applies w.project f fix) ∧
      (done.1 = none → done.2.project = w.project) := by
  dsimp only
  rw [Attempt.orReport_run, fixOne_run, found]
  cases Fix.classify? d.code d.message with
  | none => exact ⟨by simp, fun _ => rfl⟩
  | some fix =>
    dsimp only
    cases applied : r.apply w.project f fix with
    | error e => exact ⟨by simp [Applies, applied], fun _ => rfl⟩
    | ok result =>
      cases result with
      | none => exact ⟨by simp [Applies, applied], fun _ => rfl⟩
      | some repaired =>
        obtain ⟨f', text⟩ := repaired
        exact ⟨by simp [Applies, applied], by simp⟩

/-- Nothing is done exactly when no fix applies to the module as it is. -/
theorem fixAll_nothing (r : Repairs) (diagnostics : List Diagnostic)
    (found : w.project.find? path = some f) :
    let done := (diagnostics.filterMapM fun d =>
      (r.fixOne path d).orReport none (.diagnosticFailed d.code)).run w
    (done.1 = [] ↔ ∀ fix ∈ diagnostics.filterMap fun d => Fix.classify? d.code d.message,
        ¬r.Applies w.project f fix) ∧
      (done.1 = [] → done.2.project = w.project) := by
  induction diagnostics generalizing w with
  | nil => exact ⟨iff_of_true rfl nofun, fun _ => rfl⟩
  | cons d diagnostics ih =>
    obtain ⟨nothing, same⟩ := fixOne_nothing r d found
    dsimp only at nothing same ih ⊢
    rw [Step.filterMapM_cons]
    have split : (∀ fix ∈ (d :: diagnostics).filterMap fun d => Fix.classify? d.code d.message,
        ¬r.Applies w.project f fix) ↔
        (∀ fix ∈ Fix.classify? d.code d.message, ¬r.Applies w.project f fix) ∧
        ∀ fix ∈ diagnostics.filterMap fun d => Fix.classify? d.code d.message,
          ¬r.Applies w.project f fix := by
      rw [List.filterMap_cons]
      cases Fix.classify? d.code d.message <;> simp
    rw [split, ← nothing]
    generalize ((r.fixOne path d).orReport none (.diagnosticFailed d.code)).run w = one at same ⊢
    obtain ⟨action, w'⟩ := one
    cases action with
    | some action => simp
    | none =>
      have same : w'.project = w.project := same rfl
      rw [← same] at found ⊢
      simpa using ih found

end Repairs

end ModuleRepair
