import ModuleRepair.Proofs.BuildLog.Reported

/-!
# The repair of a mismatch is complete

When a module that only has a default export is reported not to export a name, no other module
imports the name from it in the end. All other imports stay as they are, and each import that has
been switched is counted (`BuildLog.repairOne_complete`). Every other report changes nothing. It is
assumed that a module is read again with just the import changed that was replaced; import lines
are (`switching_rereadsExactly`).
-/
namespace ModuleRepair

open ModuleRepair.Script ModuleRepair.SourceFile

/-- An import that a mismatch is about: it has room for a default binding, binds the name between
its braces, and is written with the reported specifier or leads to the module in question. -/
structure Project.ImportsReported (p : Project) (m : Mismatch) (consumer defining : String)
    (d : Import) : Prop where
  free : given d.defaultName = none
  bound : ∃ b ∈ d.named, b.localName = m.name
  leads : d.specifier = m.specifier ∨
    ∃ g, p.resolve? consumer d.specifier = some g ∧ g.path = defining

namespace Project

variable {p q : Project} {m : Mismatch} {consumer defining : String} {d : Import}
  {files : SourceFile → Prop} {f : SourceFile} {o : Outline}

theorem importsMismatch_iff :
    p.importsMismatch m consumer defining d = true ↔ p.ImportsReported m consumer defining d := by
  simp only [importsMismatch, Bool.and_eq_true, Bool.or_eq_true, Option.isNone_iff_eq_none,
    List.any_eq_true, Option.any_eq_true, decide_eq_true_eq]
  constructor
  · rintro ⟨⟨free, bound⟩, leads⟩
    exact ⟨free, bound, leads⟩
  · exact fun h => ⟨⟨h.free, h.bound⟩, h.leads⟩

instance : Decidable (p.ImportsReported m consumer defining d) :=
  decidable_of_iff _ importsMismatch_iff

theorem mem_of_locate? {specifier : String} {f : SourceFile} (h : p.locate? specifier = some f) :
    f ∈ p.files := by
  unfold locate? findSpecifier? at h
  split at h
  · next found =>
    obtain rfl := Option.some.inj h
    exact List.mem_of_find?_eq_some found
  · dsimp only at h
    split at h
    · cases h
    · exact List.mem_of_find?_eq_some h

/-- The imports of a reported name can be switched one after the other. -/
theorem mismatch_rewritesExactly (p : Project) (consumer defining : String)
    (h : RereadsExactly (Switching m.name) files) :
    RewritesAway files unplaced (p.importsMismatch m consumer defining)
      (·.namedToDefault? m.name) where
  kind_view _ := rfl
  view_view _ := rfl
  view_normal _ := rfl
  rewritten_view d := by
    unfold Import.namedToDefault?
    cases free : (given d.defaultName).isSome with
    | true => simp only [unplaced, free, if_true]
    | false =>
      simp only [unplaced, free, Bool.false_eq_true, if_false, Option.map_map]
      rfl
  step {f o front back d} hf hr split hd := by
    obtain ⟨new, switched, away⟩ := switched_of_importsMismatch hr (by simp [split]) hd
    obtain ⟨hg, o', hr', seen⟩ := h.replaced hf hr split (.switched (by simp [split]) switched)
    exact ⟨new, o', switched, away, hg, hr', seen⟩

end Project

namespace BuildLog

open Project

variable {files : SourceFile → Prop} {w : Work} {m : Mismatch}

/-- A mismatch that is repaired: the module that it names has a default export, and no export of the
reported name. -/
structure Repairable (p : Project) (m : Mismatch) (defining : SourceFile) : Prop where
  located : p.locate? m.specifier = some defining
  default : defining.outlineD.defaultExport.isSome = true
  missing : m.name ∉ defining.outlineD.namedExports

/-- The imports that a mismatch is about have been switched in all modules but the defining one. -/
abbrev Mended (m : Mismatch) (defining : String) : Work → List String → Work → Prop :=
  Swept (fun p consumer d => p.ImportsReported m consumer defining d)
    (fun d e => ∃ new, d.namedToDefault? m.name = some new ∧ unplaced e = new.normal)
    defining

theorem consumers_mended (ordered : w.project.Ordered)
    (h : RereadsExactly (Switching m.name) files)
    (errorFree : ∀ f ∈ w.project.files, files f ∧ f.read = .ok (some f.outlineD))
    (target : String) :
    ∃ touched w', ((w.project.files.filter (·.path ≠ target)).filterMapM
        (consumer m target)).run w = (.ok touched, w') ∧ Mended m target w touched w' := by
  rw [consumer_eq]
  exact Sweep.allOf_swept (fun _ _ _ => importsMismatch_iff)
    (fun _ same => same.importsMismatch_eq m target)
    (fun path => mismatch_rewritesExactly w.project path target h) ordered errorFree
    (fun _ _ _ _ _ new _ switched seen => ⟨new, switched, seen⟩) target

/-- **The repair of a mismatch is complete.** Just the imports that it is about are switched, and
none of them is left. If no module can be repaired, nothing changes. -/
theorem repairOne_complete (m : Mismatch) (ordered : w.project.Ordered)
    (h : RereadsExactly (Switching m.name) files)
    (errorFree : ∀ f ∈ w.project.files, files f ∧ f.read = .ok (some f.outlineD)) :
    (∀ defining, Repairable w.project m defining → ∃ touched w',
      (repairOne m).run w = (.ok touched, w') ∧
        Mended m defining.path w touched w') ∧
    ((∀ defining, ¬ Repairable w.project m defining) →
      (repairOne m).run w = (.ok [], w)) := by
  have outline {f : SourceFile} (hf : f ∈ w.project.files) : f.outline = .ok f.outlineD :=
    outline_of_read (errorFree f hf).2
  constructor
  · intro defining repairable
    have agreed : (defining.outlineD.defaultExport.isNone ||
        defining.outlineD.namedExports.contains m.name) = false := by
      simp [repairable.missing, repairable.default]
    rw [repairOne_run, repairable.located]
    simp only [outline (mem_of_locate? repairable.located), agreed, Bool.false_eq_true, if_false]
    exact consumers_mended ordered h errorFree defining.path
  · intro none
    rw [repairOne_run]
    cases located : w.project.locate? m.specifier with
    | none => rfl
    | some defining =>
      have outdated : (defining.outlineD.defaultExport.isNone ||
          defining.outlineD.namedExports.contains m.name) = true := by
        rw [← Bool.not_eq_false]
        intro agreed
        simp only [Bool.or_eq_false_iff] at agreed
        exact none defining ⟨located, by simpa using agreed.1, by simpa using agreed.2⟩
      simp only [outline (mem_of_locate? located), outdated, if_true]

/-- Where there are no imports, or nothing but import lines, a switched import is read back and the
others stay. -/
theorem switching_rereadsExactly (l : Language) (name : String) :
    RereadsExactly (Switching name) fun f =>
      (∃ ds, HoldsLines l ds f) ∨ ∃ o, f.read = .ok (some o) ∧ o.imports = [] := by
  rintro f o e f' (⟨ds, h⟩ | ⟨o', hr', none⟩) hr allowed he
  · obtain rfl : { imports := placed 0 ds } = o := by simpa [h.read] using hr
    have writable := switching_writable h allowed
    exact ⟨.inl ⟨_, h.edited hr writable he⟩, h.reread_exactly hr writable he⟩
  · rw [hr] at hr'
    obtain rfl := Option.some.inj (Except.ok.inj hr')
    rw [none] at allowed
    cases allowed with
    | switched hd _ => cases hd

/-- A module with another export beside the default one. -/
def priceOnly : SourceFile :=
  { tillModule with
    path := "/app/price.ts"
    text := "export const other = 1;\nexport default function price() \x7b\x7d\n" }

/-- Imports of a name that is not exported, and one that has renamed it. -/
def deskImports : List Import := [
  { specifier := "./price", named := [⟨"Price", none, false⟩] },
  { specifier := "@/price", named := [⟨"other", none, false⟩, ⟨"Price", none, false⟩] },
  { specifier := "./price", named := [⟨"Price", some "Cost", false⟩] }]

def deskModule : SourceFile :=
  { tillModule with
    path := "/app/desk.ts"
    text := String.intercalate "\n" (deskImports.map (·.render)) }

/-- A project of both modules. -/
def deskWork : Work where
  project := ⟨"/app", ⟨"@/", "/app"⟩, .full, [deskModule, priceOnly]⟩

theorem deskModule_holdsLines : HoldsLines .typescript deskImports deskModule :=
  ⟨by decide, rfl, by decide, .inl rfl⟩

set_option maxRecDepth 100000 in
theorem desk_mended : deskWork.project.Ordered ∧
    RereadsExactly (Switching "Price") (fun f =>
      (∃ ds, HoldsLines .typescript ds f) ∨ ∃ o, f.read = .ok (some o) ∧ o.imports = []) ∧
    (∀ f ∈ deskWork.project.files,
      ((∃ ds, HoldsLines .typescript ds f) ∨ ∃ o, f.read = .ok (some o) ∧ o.imports = []) ∧
        f.read = .ok (some f.outlineD)) ∧
    Repairable deskWork.project ⟨"Price", "@/price"⟩ priceOnly ∧
    ∃ touched w', (repairOne ⟨"Price", "@/price"⟩).run deskWork = (.ok touched, w') ∧
      Mended ⟨"Price", "@/price"⟩ "/app/price.ts" deskWork touched w' := by
  have ordered : deskWork.project.Ordered := by
    unfold Project.Ordered
    decide +kernel
  have price : priceOnly.outlineD.imports = [] ∧
      priceOnly.read = .ok (some priceOnly.outlineD) :=
    ⟨by decide +kernel, by decide +kernel⟩
  have desk : deskModule.read = .ok (some deskModule.outlineD) := by
    rw [outlineD_of_read deskModule_holdsLines.read, deskModule_holdsLines.read]
  have errorFree : ∀ f ∈ deskWork.project.files,
      ((∃ ds, HoldsLines .typescript ds f) ∨ ∃ o, f.read = .ok (some o) ∧ o.imports = []) ∧
        f.read = .ok (some f.outlineD) :=
    List.forall_mem_cons.mpr ⟨⟨.inl ⟨_, deskModule_holdsLines⟩, desk⟩,
      List.forall_mem_singleton.mpr ⟨.inr ⟨_, price.2, price.1⟩, price.2⟩⟩
  have repairable : Repairable deskWork.project ⟨"Price", "@/price"⟩ priceOnly :=
    ⟨by decide +kernel, by decide +kernel, by decide +kernel⟩
  exact ⟨ordered, switching_rereadsExactly .typescript "Price", errorFree, repairable,
    (repairOne_complete ⟨"Price", "@/price"⟩ ordered (switching_rereadsExactly .typescript "Price")
      errorFree).1 priceOnly repairable⟩

end BuildLog

end ModuleRepair
