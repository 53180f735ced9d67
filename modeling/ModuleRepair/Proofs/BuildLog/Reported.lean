import ModuleRepair.Proofs.BuildLog.Consumers
import ModuleRepair.Proofs.Diagnostic.Applies
import ModuleRepair.Proofs.Repair.Passes

/-!
# What a report of a name switches

A name is reported by a diagnostic or by a build log. Either repair looks for the name as the
consumer knows it: what is switched to a default import is bound under the reported name, whatever
it is exported as, and all other bindings of all modules stay as they are
(`reported_name_switched`). Where a consumer has renamed another export to the reported name, that
one is switched (`till_loses_other`).
-/
namespace ModuleRepair

open ModuleRepair.Script ModuleRepair.SourceFile

/-! ## What is concerned -/

/-- The imports of a module that a mismatch is about: those that bind the name from the module which
is named, unless that one offers the name, or nothing by default. -/
def BuildLog.concerns (p : Project) (m : Mismatch) (f : SourceFile) (o : Outline) : List Import :=
  match p.locate? m.specifier with
  | none => []
  | some defining =>
    match defining.outline with
    | .error _ => []
    | .ok offered =>
      if offered.defaultExport.isNone || offered.namedExports.contains m.name ||
        defining.path = f.path then []
      else o.imports.filter (p.importsMismatch m f.path defining.path)

/-- Whether an import has room for a default binding, and leads to no module that offers the name,
or nothing by default. -/
def Repairs.mayConvert (p : Project) (f : SourceFile) (name : String) (d : Import) : Bool :=
  (given d.defaultName).isNone && match p.resolve? f.path d.specifier with
    | none => true
    | some target =>
      match offersByNameOnly target name with
      | .error _ => false
      | .ok outdated => !outdated

/-- The import of a module that a diagnostic under a path is about: the first one that binds the
name from where it says, if that may be converted. -/
def Repairs.concerns (p : Project) (path name specifier : String) (f : SourceFile) (o : Outline) :
    List Import :=
  if f.path = path then
    ((findImport? p.root o specifier fun d => d.named.any (·.localName = name)).filter
      (mayConvert p f name)).toList
  else []

/-- From one project to another the imports that are concerned are switched in all modules of a
set. They stay in the set, and those without an error stay without one. -/
def SwitchesAll (files : SourceFile → Prop) (p p' : Project) (name : String)
    (which : SourceFile → Outline → List Import) : Prop :=
  ∀ f ∈ p.files, files f → ∀ o, f.outline = .ok o → ∃ g o', p'.find? f.path = some g ∧
    files g ∧ (f.read = .ok (some o) → g.read = .ok (some o')) ∧ g.outline = .ok o' ∧
    Switches name o.imports (which f o) o'.imports

variable {files : SourceFile → Prop} {p : Project} {w : Work} {name : String}
  {which : SourceFile → Outline → List Import}

/-- Where nothing is concerned, a project switches nothing. -/
theorem SwitchesAll.same (ordered : p.Ordered) (none : ∀ f o, which f o = []) :
    SwitchesAll files p p name which := by
  intro f hf hfs o ho
  refine ⟨f, o, ordered.find?_of_mem hf, hfs, id, ho, ?_⟩
  rw [none]
  exact .refl ..

theorem BuildLog.repairOne_switches {directory : String} (readable : w.project.Readable directory)
    (h : Rereads (Switching name) files) (specifier : String) :
    SwitchesAll files w.project ((repairOne ⟨name, specifier⟩).run w).2.project name
      (concerns w.project ⟨name, specifier⟩) := by
  rw [repairOne_run]
  cases located : w.project.locate? specifier with
  | none => exact .same readable.ordered fun f o => by simp [concerns, located]
  | some defining =>
    dsimp only
    cases offered : defining.outline with
    | error e => exact .same readable.ordered fun f o => by simp [concerns, located, offered]
    | ok offers =>
      dsimp only
      split
      · next outdated =>
        refine .same readable.ordered fun f o => ?_
        simp only [concerns, located, offered, outdated, Bool.true_or, if_true]
      · next agreed =>
        have agreed : (offers.defaultExport.isNone || offers.namedExports.contains name) = false :=
          Bool.eq_false_iff.mpr agreed
        let sweep := Project.consumerSweep ⟨name, specifier⟩ defining.path
        -- Whether or not they are read without errors, all others are rewritten in some way.
        have succeeds : ∀ f ∈ w.project.files, sweep.Succeeds w.project f := fun f hf => by
          obtain ⟨l, language⟩ := readable.language hf
          exact Sweep.allOf_succeeds language
        have stable : ∀ f p', w.project.SamePaths p' → sweep f p' = sweep f w.project :=
          fun f p' same => Sweep.allOf_stable (same.importsMismatch_eq _ _) f
        intro f hf hfs o ho
        have found := Attempt.others_swept_find? stable readable.ordered defining.path succeeds hf
        rw [← Project.consumer_eq] at found
        by_cases here : f.path = defining.path
        · refine ⟨f, o, by rw [found, if_pos here], hfs, id, ho, ?_⟩
          simp only [concerns, located, offered, agreed, here, decide_true, Bool.or_true, if_true]
          exact .refl ..
        · obtain ⟨g, count, o', rewritten, hg, hr', ho', switched⟩ :=
            w.project.rewriteConsumer_switches (m := ⟨name, specifier⟩) defining.path h hfs ho
          rw [← Project.consumerSweep_eq] at rewritten
          refine ⟨g, o', by rw [found, if_neg here, Sweep.result_eq rewritten], hg, hr', ho', ?_⟩
          simpa only [concerns, located, offered, agreed, Ne.symm here, decide_false,
            Bool.or_false, Bool.false_eq_true, if_false] using switched

theorem Repairs.importDefault_switches {f : SourceFile} {o : Outline} (p : Project)
    (specifier : String) (h : Rereads (Switching name) files) (hf : files f)
    (ho : f.outline = .ok o) :
    let g := fileAfter f (importDefault p f name specifier)
    ∃ o', files g ∧ (f.read = .ok (some o) → g.read = .ok (some o')) ∧ g.outline = .ok o' ∧
      Switches name o.imports (concerns p f.path name specifier f o) o'.imports := by
  simp only [importDefault, concerns, ho, bind, Except.bind, if_true]
  cases found : findImport? p.root o specifier fun d => d.named.any (·.localName = name) with
  | none => exact ⟨o, hf, id, ho, .refl ..⟩
  | some d =>
    obtain ⟨hd, -, bound⟩ := findImport?_eq_some found
    obtain ⟨front, back, split⟩ := List.append_of_mem hd
    have hr : f.read = .ok (some o) :=
      (read_or_empty ho).resolve_right (List.ne_nil_of_mem hd)
    have kept (no : mayConvert p f name d = false) :
        ∃ o', files f ∧ (f.read = .ok (some o) → f.read = .ok (some o')) ∧ f.outline = .ok o' ∧
          Switches name o.imports ((some d).filter (mayConvert p f name)).toList o'.imports := by
      rw [Option.filter_some_neg (by simp [no])]
      exact ⟨o, hf, id, ho, .refl ..⟩
    have converted (text : String)
        (may : mayConvert p f name d = (given d.defaultName).isNone) :
        let g := fileAfter f (.ok ((d.namedToDefault? name).map fun new =>
          (f.replaceImport d [new], text)))
        ∃ o', files g ∧ (f.read = .ok (some o) → g.read = .ok (some o')) ∧ g.outline = .ok o' ∧
          Switches name o.imports ((some d).filter (mayConvert p f name)).toList o'.imports := by
      cases new : d.namedToDefault? name with
      | none =>
        refine kept (may.trans (Bool.eq_false_iff.mpr fun free => ?_))
        have some := Import.namedToDefault?_isSome_iff.mpr
          ⟨Option.isNone_iff_eq_none.mp free, bound⟩
        rw [new] at some
        cases some
      | some new' =>
        have free := (Import.namedToDefault?_isSome_iff.mp (by rw [new]; rfl)).1
        obtain ⟨hg, o', hr', alike, -⟩ := h.replaced hf hr split (.switched (by simp [split]) new)
        rw [Option.filter_some_pos (by rw [may, free]; rfl), split]
        exact ⟨o', hg, fun _ => hr', outline_of_read hr', (Switches.one new front back).congr alike⟩
    dsimp only
    cases resolved : p.resolve? f.path d.specifier with
    | none => exact converted _ (by simp [mayConvert, resolved])
    | some target =>
      dsimp only
      cases offers : offersByNameOnly target name with
      | error e => exact kept (by simp [mayConvert, resolved, offers])
      | ok outdated =>
        cases outdated with
        | true => exact kept (by simp [mayConvert, resolved, offers])
        | false => exact converted _ (by simp [mayConvert, resolved, offers])

/-- A fix replaces the module under the path, and no other. -/
theorem Repairs.fixOne_find? {r : Repairs} {path : String} {d : Diagnostic} {fix : Fix}
    (classified : Fix.classify? d.code d.message = some fix) (w : Work) (other : String) :
    ((r.fixOne path d).run w).2.project.find? other = (w.project.find? other).map fun f =>
      if f.path = path then fileAfter f (r.apply w.project f fix) else f := by
  -- Whatever is found with this path is what is found under it.
  have under {g : SourceFile} (there : w.project.find? other = some g) (own : g.path = path) :
      w.project.find? path = some g := by
    rw [← own, Project.path_of_find? there, there]
  have idle (same : ∀ f, w.project.find? path = some f →
      fileAfter f (r.apply w.project f fix) = f) :
      w.project.find? other = (w.project.find? other).map fun f =>
        if f.path = path then fileAfter f (r.apply w.project f fix) else f := by
    refine Option.map_id'.symm.trans (Option.map_congr fun g there => ?_)
    split
    · next own => exact (same g (under there own)).symm
    · rfl
  rw [fixOne_run, classified]
  cases found : w.project.find? path with
  | none => exact idle fun f there => by rw [found] at there; cases there
  | some f =>
    dsimp only
    cases applied : r.apply w.project f fix with
    | error e =>
      refine idle fun g there => ?_
      obtain rfl := Option.some.inj (found.symm.trans there)
      rw [applied]
      rfl
    | ok result =>
      cases result with
      | none =>
        refine idle fun g there => ?_
        obtain rfl := Option.some.inj (found.symm.trans there)
        rw [applied]
        rfl
      | some done =>
        obtain ⟨f', text⟩ := done
        have named : f'.path = path :=
          (apply_edited (List.mem_singleton.mpr rfl) applied).path.1.trans
            (Project.path_of_find? found)
        dsimp only
        rw [Project.find?_replaced (named ▸ found), named]
        refine Option.map_congr fun g there => ?_
        split
        · next own =>
          obtain rfl := Option.some.inj (found.symm.trans (under there own))
          rw [applied]
          rfl
        · rfl

theorem Repairs.fixOne_switches {r : Repairs} {path specifier : String} {d : Diagnostic}
    (classified : Fix.classify? d.code d.message = some (.importDefault name specifier))
    (ordered : w.project.Ordered) (h : Rereads (Switching name) files) :
    SwitchesAll files w.project ((r.fixOne path d).run w).2.project name
      (concerns w.project path name specifier) := by
  intro f hf hfs o ho
  have found := ordered.find?_of_mem hf
  rw [fixOne_find? classified, found]
  by_cases here : f.path = path
  · subst here
    obtain ⟨o', hg, hr', ho', switched⟩ := importDefault_switches w.project specifier h hfs ho
    have after : (if f.path = f.path then fileAfter f (r.apply w.project f
        (.importDefault name specifier)) else f) =
          fileAfter f (importDefault w.project f name specifier) := if_pos rfl
    rw [Option.map_some, after]
    exact ⟨_, o', rfl, hg, hr', ho', switched⟩
  · refine ⟨f, o, by simp [here], hfs, id, ho, ?_⟩
    rw [concerns, if_neg here]
    exact .refl ..

/-- From one project to another the first bindings of a local name by the imports that are concerned
have become default ones. They were named ones, and everything else is bound as before. -/
def SwitchesBindings (files : SourceFile → Prop) (p p' : Project) (name : String)
    (which : SourceFile → Outline → List Import) : Prop :=
  ∀ f ∈ p.files, files f → ∀ o, f.outline = .ok o → ∃ g o', p'.find? f.path = some g ∧
    g.outline = .ok o' ∧ Switched name (which f o) (bindingsOf o.imports) (bindingsOf o'.imports) ∧
    ∀ b ∈ (which f o).flatMap (·.boundAs name), b.kind = .namedExport ∧ b.localName = name

theorem SwitchesAll.rebinds {p' : Project} (letters : name ≠ "")
    (h : SwitchesAll files p p' name which) : SwitchesBindings files p p' name which := by
  intro f hf hfs o ho
  obtain ⟨g, o', found, -, -, ho', switches⟩ := h f hf hfs o ho
  exact ⟨g, o', found, ho', switches.bindings letters, of_mem_boundAs _⟩

/-- **What a report switches.** Both repairs go by the local name: they switch named bindings under
the reported name, and nothing else is bound otherwise in any module. -/
theorem reported_name_switched {directory : String} (readable : w.project.Readable directory)
    (letters : name ≠ "") (h : Rereads (Switching name) files) :
    (∀ specifier, SwitchesBindings files w.project
      ((BuildLog.repairOne ⟨name, specifier⟩).run w).2.project name
      (BuildLog.concerns w.project ⟨name, specifier⟩)) ∧
    ∀ (r : Repairs) (path specifier : String) (d : Diagnostic),
      Fix.classify? d.code d.message = some (.importDefault name specifier) →
      SwitchesBindings files w.project ((r.fixOne path d).run w).2.project name
        (Repairs.concerns w.project path name specifier) :=
  ⟨fun specifier => (BuildLog.repairOne_switches readable h specifier).rebinds letters,
    fun _ _ _ _ classified =>
      (Repairs.fixOne_switches classified readable.ordered h).rebinds letters⟩

/-- An import of another export, under the name of the reported one. -/
def tillImports : List Import := [
  { specifier := "./price", named := [⟨"other", some "Price", false⟩] }]

/-- A module of this import. -/
def tillModule : SourceFile where
  path := "/app/till.ts"
  text := String.intercalate "\n" (tillImports.map (·.render))
  saved := ""
  root := ⟨"@/", "/app"⟩

/-- A project of the module and the one that it imports from. -/
def tillWork : Work where
  project := ⟨"/app", ⟨"@/", "/app"⟩, .full, [
    { tillModule with
      path := "/app/price.ts"
      text := "export const other = 1;\nexport default function price() \x7b\x7d\n" },
    tillModule]⟩

theorem tillModule_holdsLines : HoldsLines .typescript tillImports tillModule :=
  ⟨by decide, rfl, by decide, .inl rfl⟩

theorem till_readable : tillWork.project.Readable "/app" where
  ordered := by unfold Project.Ordered; decide +kernel
  directory_eq := rfl
  normal := by decide +kernel
  supported := by decide +kernel

theorem till_switched : tillWork.project.Readable "/app" ∧ "Price" ≠ "" ∧
    Rereads (Switching "Price") (fun f => ∃ ds, HoldsLines .typescript ds f) ∧
    (∃ ds, HoldsLines .typescript ds tillModule) ∧
    (∀ specifier, SwitchesBindings (fun f => ∃ ds, HoldsLines .typescript ds f) tillWork.project
      ((BuildLog.repairOne ⟨"Price", specifier⟩).run tillWork).2.project "Price"
      (BuildLog.concerns tillWork.project ⟨"Price", specifier⟩)) ∧
    ∀ (r : Repairs) (path specifier : String) (d : Diagnostic),
      Fix.classify? d.code d.message = some (.importDefault "Price" specifier) →
      SwitchesBindings (fun f => ∃ ds, HoldsLines .typescript ds f) tillWork.project
        ((r.fixOne path d).run tillWork).2.project "Price"
        (Repairs.concerns tillWork.project path "Price" specifier) :=
  ⟨till_readable, by decide, switching_rereads, ⟨_, tillModule_holdsLines⟩,
    reported_name_switched till_readable (by decide) switching_rereads⟩

/-- The module imports `other`, and by either repair of `Price` it imports the default export
instead. -/
theorem till_loses_other :
    let complaint : Diagnostic :=
      { code := 2614, message := "Did you mean to use 'import Price from \"./price\"' instead?" }
    let mended := (BuildLog.repairOne ⟨"Price", "@/price"⟩).run tillWork
    let fixed := (Repairs.standardRepairs.fixOne "/app/till.ts" complaint).run tillWork
    tillModule.read = .ok (some { imports := placed 0 tillImports }) ∧
      bindingsOf (placed 0 tillImports) =
        [⟨"./price", false, .namedExport, "other", "Price", false⟩] ∧
      (mended.2.project.find? "/app/till.ts").map (·.text) =
        some "import Price from \"./price\";" ∧
      (fixed.2.project.find? "/app/till.ts").map (·.text) =
        some "import Price from \"./price\";" :=
  ⟨tillModule_holdsLines.read, by decide, by decide +kernel, by decide +kernel⟩

end ModuleRepair
