import ModuleRepair.Proofs.Diagnostic.FixLines
import ModuleRepair.Proofs.Diagnostic.Lasting
import ModuleRepair.Proofs.Export.Normalize
import ModuleRepair.Proofs.Repair.Passes
import ModuleRepair.Proofs.Repair.Sweep

/-!
# The importers of a converted default export

When the default export of a module becomes a named one, every import of it under its own name is
changed first. In the end no such import is left in any other module, the changed imports bind the
same local names, and all others are as they were (`Normalize.module_adapts`). It is assumed that a
module is read again with just the import changed that was replaced; import lines are
(`byName_rereadsExactly`).
-/
namespace ModuleRepair

open ModuleRepair.Script ModuleRepair.SourceFile

/-- The edits that put a default binding of a name into the braces. A namespace has no room beside
them. -/
inductive ByName (name : String) (ds : List Import) : Edit → Prop
  | converted {i : Nat} {d : Import} : ds[i]? = some d → d.defaultName = some name →
      given d.namespaceName = none → ByName name ds (.replace i [d.defaultToNamed name])

/-! ## One import -/

namespace Import

variable {d e : Import} {name : String}

theorem mem_localNames_defaultToNamed_iff {x n : String} (default : given d.defaultName = some x) :
    n ∈ (d.defaultToNamed name).localNames ↔ n ∈ d.localNames := by
  refine ⟨fun h => ?_, fun h => mem_localNames_defaultToNamed h name⟩
  rw [mem_localNames] at h ⊢
  simp only [defaultToNamed, withNamed, mem_localNames_sortNamed, List.map_append, List.mem_append,
    default, Option.getD_some, List.map_cons, List.map_nil, List.mem_singleton, given_none,
    NamedImport.localName_renamed (given_ne_empty default), reduceCtorEq, false_or] at h
  rw [default, Option.some_inj]
  grind

/-- What becomes of an import of a default export: it binds the same local names, and the name
between its braces. If it binds no name twice, everything else is bound as before. -/
structure BindsByName (name : String) (d e : Import) : Prop where
  read : unplaced e = (d.defaultToNamed name).normal
  localNames : ∀ n, n ∈ e.localNames ↔ n ∈ d.localNames
  named : ∃ b ∈ e.named, b.localName = name ∧
    (b.name = name ∨ ∃ b' ∈ d.named, b'.localName = name)
  bindings : d.localNames.Nodup → e.bindings.Perm
    ({ d.bindDefault name with kind := .namedExport, exported := name } ::
      (d.named.map d.bindNamed ++ (given d.namespaceName).toList.map d.bindNamespace))

theorem bindsByName (default : given d.defaultName = some name)
    (read : unplaced e = (d.defaultToNamed name).normal) : d.BindsByName name e where
  read := read
  localNames n := by
    have same : e.localNames = (d.defaultToNamed name).localNames := by
      rw [← bindings_localName, ← bindings_localName, ← normal_bindings (d.defaultToNamed name),
        ← read]
      rfl
    rw [same, mem_localNames_defaultToNamed_iff default]
  named := by
    let new : NamedImport := ⟨name, (given (some name)).filter (· ≠ name), false⟩
    have own : new.localName = name := NamedImport.localName_renamed (given_ne_empty default) name
    have named : e.named = (sortNamed (d.named ++ [new])).map (·.normal) := by
      have same : (unplaced e).named = (d.defaultToNamed name).normal.named :=
        congrArg Import.named read
      change e.named = _ at same
      simpa only [normal, defaultToNamed, withNamed, default, Option.getD_some] using same
    have there : name ∈ (sortNamed (d.named ++ [new])).map (·.localName) := by
      rw [mem_localNames_sortNamed, List.map_append]
      exact List.mem_append_right _ (List.mem_singleton.mpr own.symm)
    obtain ⟨b, hb, same⟩ := List.mem_map.mp there
    have unchanged : b.normal.localName = b.localName := NamedImport.normal_localName b
    refine ⟨b.normal, named ▸ List.mem_map_of_mem hb, unchanged.trans same, ?_⟩
    rcases List.mem_append.mp (mem_of_mem_sortNamed hb) with old | here
    · exact .inr ⟨b, old, same⟩
    · exact .inl (by rw [List.mem_singleton.mp here]; rfl)
  bindings nodup := by
    have same : e.bindings = (d.defaultToNamed name).bindings := by
      rw [← normal_bindings (d.defaultToNamed name), ← read]
      rfl
    rw [same]
    exact bindings_defaultToNamed default nodup name

end Import

/-! ## One importer -/

/-- An import that binds the default export of a module under a name. -/
structure Project.ImportsDefault (p : Project) (importer target name : String) (d : Import) :
    Prop where
  bound : d.defaultName = some name
  leads : ∃ g, p.resolve? importer d.specifier = some g ∧ g.path = target

/-- An import without a namespace beside a default binding. -/
def Import.Unmixed (d : Import) : Prop :=
  d.defaultName = none ∨ d.namespaceName = none

instance (d : Import) : Decidable d.Unmixed :=
  inferInstanceAs (Decidable (_ ∨ _))

namespace Project

variable {p q : Project} {importer target name : String} {d : Import}
  {files : SourceFile → Prop} {f : SourceFile}

theorem importsDefault_iff :
    p.importsDefault importer target name d = true ↔ p.ImportsDefault importer target name d := by
  simp only [importsDefault, Bool.and_eq_true, Option.any_eq_true, decide_eq_true_eq]
  constructor
  · rintro ⟨bound, leads⟩
    exact ⟨bound, leads⟩
  · exact fun h => ⟨h.bound, h.leads⟩

instance : Decidable (p.ImportsDefault importer target name d) :=
  decidable_of_iff _ importsDefault_iff

theorem SamePaths.importsDefault_iff (h : p.SamePaths q) :
    q.ImportsDefault importer target name d ↔ p.ImportsDefault importer target name d := by
  rw [← Project.importsDefault_iff, h.importsDefault, Project.importsDefault_iff]

/-- The imports of a default export are rewritten one after the other. -/
theorem rewriteDefaults_eq (p : Project) (target name : String) (n : Nat) (f : SourceFile) :
    p.rewriteDefaults target name n f =
      rewriteWhere (p.importsDefault f.path target name) (fun d => some (d.defaultToNamed name))
        n f := by
  induction n generalizing f with
  | zero => rfl
  | succ n ih =>
    simp only [rewriteDefaults, rewriteWhere, ih]
    rfl

/-- All imports of a default export are rewritten. -/
def importerSweep (target name : String) : Sweep :=
  .allOf (fun p importer => p.importsDefault importer target name)
    fun d => some (d.defaultToNamed name)

theorem importerSweep_eq (target name : String) (f : SourceFile) (p : Project) :
    importerSweep target name f p = p.rewriteImporter target name f := by
  simp only [importerSweep, Sweep.allOf, rewriteImporter, rewriteDefaults_eq]

/-- The importers are changed by such a sweep. -/
theorem importer_eq (target name : String) :
    Normalize.importer target name =
      fun f => Attempt.rewrite (importerSweep target name f) := by
  funext f
  rw [funext (importerSweep_eq target name f)]
  rfl

/-- The imports of a default export can be changed one after the other, as long as no namespace
stands beside a default binding. -/
theorem default_rewritesExactly (p : Project) (importer target : String)
    (h : RereadsExactly (ByName name) files) :
    RewritesAway
      (fun f => files f ∧ ∀ o, f.read = .ok (some o) → ∀ d ∈ o.imports, d.Unmixed) unplaced
      (p.importsDefault importer target name) (fun d => some (d.defaultToNamed name)) where
  kind_view _ := rfl
  view_view _ := rfl
  view_normal _ := rfl
  rewritten_view _ := rfl
  step {f o front back d} hf hr split hd := by
    have bound := (importsDefault_iff.mp hd).bound
    have noNamespace : given d.namespaceName = none := by
      have unmixed := hf.2 o hr d (by simp [split])
      rw [unmixed.resolve_left (by simp [bound]), given_none]
    obtain ⟨hg, o', hr', seen⟩ :=
      h.replaced hf.1 hr split (.converted (by simp [split]) bound noNamespace)
    have away : p.importsDefault importer target name (d.defaultToNamed name).normal = false := by
      rw [← Bool.not_eq_true, importsDefault_iff]
      exact fun again => nomatch again.bound
    refine ⟨_, o', rfl, away, ⟨hg, fun o'' hr'' e he => ?_⟩, hr', seen⟩
    rw [hr'] at hr''
    obtain rfl := Option.some.inj (Except.ok.inj hr'')
    -- Each import is the one that was put in, or was there before.
    have there := List.mem_map_of_mem (f := unplaced) he
    have old : ∀ e' ∈ o.imports, unplaced e' = unplaced e → e.Unmixed := fun e' he' same =>
      have unmixed : (unplaced e').Unmixed := hf.2 o hr e' he'
      show (unplaced e).Unmixed from same ▸ unmixed
    simp only [seen, List.mem_append, List.mem_cons, List.mem_map] at there
    rcases there with ⟨e', he', same⟩ | new | ⟨e', he', same⟩
    · exact old e' (by simp [split, he']) same
    · exact .inl (congrArg Import.defaultName new)
    · exact old e' (by simp [split, he']) same

theorem SamePaths.importsDefault_eq (h : p.SamePaths q) (target name : String) :
    (fun importer => q.importsDefault importer target name) =
      fun importer => p.importsDefault importer target name :=
  funext fun importer => h.importsDefault importer target name

end Project

/-! ## The module itself -/

namespace Normalize

/-- In every module of a set, marking a declaration of the name as exported changes no import, and
neither does taking the default export away. -/
structure KeepsImports (name : String) (own : SourceFile → Prop) : Prop where
  marked : ∀ {f g o}, own f → f.read = .ok (some o) → f.markExported name = .ok (some g) →
    own g ∧ ∃ o', g.read = .ok (some o') ∧ o'.imports.map unplaced = o.imports.map unplaced
  removed : ∀ {f g o}, own f → f.read = .ok (some o) → f.removeDefaultExport = .ok (some g) →
    own g ∧ ∃ o', g.read = .ok (some o') ∧ o'.imports.map unplaced = o.imports.map unplaced

variable {name : String} {own : SourceFile → Prop} {f g : SourceFile} {o : Outline}

theorem exportByName_imports (h : KeepsImports name own) (hf : own f) (hr : f.read = .ok (some o))
    (exported : exportByName f name = .ok g) :
    ∃ o', g.read = .ok (some o') ∧ o'.imports.map unplaced = o.imports.map unplaced := by
  simp only [exportByName, bind, Except.bind] at exported
  cases marking : f.markExported name with
  | error e => simp [marking] at exported
  | ok marked? =>
    obtain ⟨marked, hm, hm', o₁, hr₁, same⟩ : ∃ marked, marked?.getD f = marked ∧ own marked ∧
        ∃ o₁, marked.read = .ok (some o₁) ∧ o₁.imports.map unplaced = o.imports.map unplaced := by
      cases marked? with
      | none => exact ⟨f, rfl, hf, o, hr, rfl⟩
      | some marked => exact ⟨marked, rfl, h.marked hf hr marking⟩
    simp only [marking, hm] at exported
    cases removing : marked.removeDefaultExport with
    | error e => simp [removing] at exported
    | ok g? =>
      simp only [removing] at exported
      obtain rfl := Except.ok.inj exported
      cases g? with
      | none => exact ⟨o₁, hr₁, same⟩
      | some g =>
        obtain ⟨-, o', hr', same'⟩ := h.removed hm' hr₁ removing
        exact ⟨o', hr', same'.trans same⟩

/-- The default export is a name that is declared at the top level of the module. -/
structure DefaultDeclared (o : Outline) (name : String) : Prop where
  default : ∃ span, o.defaultExport = some ⟨.identifier, some name, span⟩
  declared : ∃ d ∈ o.declarations, d.name = name

theorem convertibleName?_eq_some_iff : convertibleName? o = some name ↔ DefaultDeclared o name := by
  have declared (name : String) : (o.declaration? name).isSome = true ↔
      ∃ d ∈ o.declarations, d.name = name := by
    simp [Outline.declaration?, List.find?_isSome]
  unfold convertibleName?
  split
  · next there span default =>
    rw [Option.ite_none_right_eq_some, declared, Option.some_inj]
    constructor
    · rintro ⟨declared, rfl⟩
      exact ⟨⟨span, default⟩, declared⟩
    · rintro ⟨⟨span', default'⟩, declared⟩
      rw [default] at default'
      cases default'
      exact ⟨declared, rfl⟩
  · next other =>
    refine ⟨nofun, fun h => ?_⟩
    obtain ⟨span, default⟩ := h.default
    exact absurd default (other name span)

/-! ## The whole project -/

variable {files : SourceFile → Prop} {w : Work}

/-- What the conversion of a module does to a project: the module exports its default by name, and
in all other modules the imports of it have been changed. These are counted, and the modules that
had one are answered, as well as the module itself. Its own imports are not edited; they are read as
before in every set of modules that keeps them through the edits of its exports. -/
structure Adapted (f g : SourceFile) (name : String) (w : Work)
    (touched : List String) (w' : Work) : Prop where
  exported : exportByName f name = .ok g
  modules : List.Forall₂ (fun h k => if h.path = f.path then k = g
    else AllRewritten (w.project.ImportsDefault h.path f.path name)
      (w'.project.ImportsDefault h.path f.path name) (·.BindsByName name) h.outlineD h k)
        w.project.files w'.project.files
  counted : w'.stats = { w.stats with
    importsFixed := w.stats.importsFixed +
      ((w.project.files.filter (·.path ≠ f.path)).map fun h =>
        h.outlineD.imports.countP fun d => w.project.ImportsDefault h.path f.path name d).sum
    exportsRefactored := w.stats.exportsRefactored + 1 }
  notices : w'.notices = w.notices
  answered : ∀ path, path ∈ touched ↔ path = f.path ∨ ∃ h ∈ w.project.files, h.path = path ∧
    h.path ≠ f.path ∧ ∃ d ∈ h.outlineD.imports, w.project.ImportsDefault h.path f.path name d
  own : ∀ own, KeepsImports name own → own f → ∃ o, g.read = .ok (some o) ∧
    o.imports.map unplaced = f.outlineD.imports.map unplaced

theorem importers_swept (ordered : w.project.Ordered) (h : RereadsExactly (ByName name) files)
    (errorFree : ∀ f ∈ w.project.files, files f ∧ f.read = .ok (some f.outlineD))
    (unmixed : ∀ f ∈ w.project.files, ∀ d ∈ f.outlineD.imports, d.Unmixed) (target : String) :
    ∃ touched w', ((w.project.files.filter (·.path ≠ target)).filterMapM
        (importer target name)).run w = (.ok touched, w') ∧
      Swept (fun p importer d => p.ImportsDefault importer target name d) (·.BindsByName name)
        target w touched w' := by
  rw [Project.importer_eq]
  refine Sweep.allOf_swept (fun _ _ _ => Project.importsDefault_iff)
    (fun _ same => same.importsDefault_eq target name)
    (fun path => Project.default_rewritesExactly w.project path target h) ordered
    (fun f hf => ?_) (fun f hf d hd imports new e becomes seen => ?_) target
  · obtain ⟨there, hr⟩ := errorFree f hf
    refine ⟨⟨there, fun o hr' => ?_⟩, hr⟩
    rw [hr] at hr'
    obtain rfl := Option.some.inj (Except.ok.inj hr')
    exact unmixed f hf
  · obtain rfl := Option.some.inj becomes
    have parsed := parsed_of_read (errorFree f hf).2 d hd
    exact Import.bindsByName (parsed.given_defaultName.trans imports.bound) seen

/-- **The importers of a converted default export are changed, just these, and all of them.** A
module whose default export cannot be converted leaves the project as it is. -/
theorem module_adapts (ordered : w.project.Ordered) (hf : f ∈ w.project.files)
    (h : ∀ name, RereadsExactly (ByName name) files)
    (errorFree : ∀ f ∈ w.project.files, files f ∧ f.read = .ok (some f.outlineD))
    (unmixed : ∀ f ∈ w.project.files, ∀ d ∈ f.outlineD.imports, d.Unmixed) :
    (∀ name, DefaultDeclared f.outlineD name → ∃ touched w' g,
      (module f).run w = (.ok touched, w') ∧ Adapted f g name w touched w') ∧
    ((∀ name, ¬ DefaultDeclared f.outlineD name) → (module f).run w = (.ok [], w)) := by
  have hr := (errorFree f hf).2
  have run := module_run f w
  simp only [outline_of_read hr] at run
  constructor
  · intro name declared
    obtain ⟨answered, w₁, importers, swept⟩ :=
      importers_swept ordered (h name) errorFree unmixed f.path
    obtain ⟨l, language⟩ := language_of_outline (outline_of_read hr)
    obtain ⟨g, exported⟩ := exportByName_eq_ok language name
    simp only [convertibleName?_eq_some_iff.mpr declared, importers, exported] at run
    -- The module itself is not swept, and changed at last.
    obtain ⟨k, there, same⟩ := exists_of_forall₂ swept.modules hf
    rw [if_pos rfl] at same
    subst same
    have changes : Relation.ReflTransGen (Rewriting WritesByName) k g :=
      exportByName_rewrites exported
    have path : g.path = k.path := path_of_rewritings changes
    have put := swept.ordered.put_eq_mapFiles there path
    have own : ∀ h ∈ w₁.project.files, (if h.path = k.path then g else h).path = h.path := by
      intro h _
      split
      · next here => rw [path, here]
      · rfl
    refine ⟨_, _, g, run, exported, ?_, ?_, swept.notices, fun path => ?_,
      fun own keeps there => exportByName_imports keeps there hr exported⟩
    · dsimp only
      rw [put, Project.mapFiles, List.forall₂_map_right_iff]
      refine swept.modules.imp fun h h' becomes => ?_
      by_cases here : h.path = k.path
      · rw [if_pos here] at becomes ⊢
        rw [becomes, if_pos here]
      · rw [if_neg here] at becomes ⊢
        rw [if_neg (becomes.path ▸ here)]
        exact becomes.congr fun d => (Project.SamePaths.mapFiles own).importsDefault_iff
    · rw [swept.counted]
    · rw [List.mem_append, List.mem_singleton, swept.answered, or_comm]
  · intro none
    have inconvertible : convertibleName? f.outlineD = .none := by
      rw [Option.eq_none_iff_forall_ne_some]
      exact fun name there => none name (convertibleName?_eq_some_iff.mp there)
    simpa only [inconvertible] using run

/-! ## Modules that are reread -/

/-- A binding that is put into the braces can stand among import lines. -/
theorem byName_writable {l : Language} {ds : List Import} {e : Edit} (lines : HoldsLines l ds f)
    (allowed : ByName name (placed 0 ds) e) : e.Writable l ds.length := by
  cases allowed with
  | converted hd bound noNamespace =>
    obtain ⟨inside, wf, typed⟩ := of_placed_getElem? lines.wellFormed lines.typed hd
    exact .replaceOne inside
      (Repairs.defaultToNamed_wellFormed wf.quotesFit (by rw [wf.attributes, given_none])
        wf.bindings_plain (wf.defaultName name bound) noNamespace)
      (typed.imp_right Repairs.defaultToNamed_untyped)

/-- Where nothing is imported by default, or there is nothing but import lines, a converted import
is read back and the others stay. -/
theorem byName_rereadsExactly (l : Language) (name : String) :
    RereadsExactly (ByName name) fun f => (∃ ds, HoldsLines l ds f) ∨
      ∃ o, f.read = .ok (some o) ∧ ∀ d ∈ o.imports, d.defaultName = none := by
  rintro f o e f' (⟨ds, lines⟩ | ⟨o', hr', none⟩) hr allowed he
  · obtain rfl : { imports := placed 0 ds } = o := by simpa [lines.read] using hr
    have writable := byName_writable lines allowed
    exact ⟨.inl ⟨_, lines.edited hr writable he⟩, lines.reread_exactly hr writable he⟩
  · rw [hr] at hr'
    obtain rfl := Option.some.inj (Except.ok.inj hr')
    cases allowed with
    | converted hd bound _ =>
      rw [none _ (List.mem_of_getElem? hd)] at bound
      cases bound

/-- The imports of a module that is read without errors, apart from their places. -/
def imports? (f : SourceFile) : Option (List Import) :=
  f.read.toOption.join.map fun o => o.imports.map unplaced

theorem imports?_eq_some_iff {ds : List Import} : imports? f = some ds ↔
    ∃ o, f.read = .ok (some o) ∧ o.imports.map unplaced = ds := by
  unfold imports?
  rcases f.read with e | (_ | o) <;> simp [Except.toOption]

/-- Whether a change leads from each module of a list to one of the list. -/
def staysWithin (fs : List SourceFile)
    (change : SourceFile → Except LanguageError (Option SourceFile)) : Bool :=
  fs.all fun f => match change f with
    | .ok (some g) => fs.contains g
    | _ => true

theorem of_staysWithin {fs : List SourceFile} {ds : List Import}
    {change : SourceFile → Except LanguageError (Option SourceFile)}
    (same : ∀ f ∈ fs, imports? f = some ds) (h : staysWithin fs change = true) (hf : f ∈ fs)
    (hr : f.read = .ok (some o)) (changed : change f = .ok (some g)) :
    g ∈ fs ∧ ∃ o', g.read = .ok (some o') ∧ o'.imports.map unplaced = o.imports.map unplaced := by
  have there : g ∈ fs := by
    have here := List.all_eq_true.mp h f hf
    simpa only [changed, List.contains_iff_mem] using here
  have before : imports? f = some (o.imports.map unplaced) := imports?_eq_some_iff.mpr ⟨o, hr, rfl⟩
  exact ⟨there, imports?_eq_some_iff.mp ((same g there).trans ((same f hf).symm.trans before))⟩

/-- Modules that import the same and that the edits do not leave keep their imports. -/
theorem keepsImports_of_staysWithin {fs : List SourceFile} {ds : List Import}
    (same : ∀ f ∈ fs, imports? f = some ds)
    (marked : staysWithin fs (·.markExported name) = true)
    (removed : staysWithin fs (·.removeDefaultExport) = true) : KeepsImports name (· ∈ fs) where
  marked {_ _ _} hf hr changed := of_staysWithin same marked hf hr changed
  removed {_ _ _} hf hr changed := of_staysWithin same removed hf hr changed

/-- A module that imports something itself, with the given statements. -/
def ratedPrice (statements : String) : SourceFile :=
  pricing ("import \x7b rate \x7d from \"./rate\";\n\n" ++ statements)

/-- A module with a default export that can be converted. -/
def ratedModule : SourceFile :=
  ratedPrice "function price() \x7b\x7d\nexport default price;\n"

/-- The module and what may become of it. -/
def ratedModules : List SourceFile :=
  [ratedModule, ratedPrice "export function price() \x7b\x7d\nexport default price;\n",
    ratedPrice "function price() \x7b\x7d\n", ratedPrice "export function price() \x7b\x7d\n"]

/-- Imports of the default export under its own name and under another one. -/
def kioskImports : List Import := [
  { specifier := "./price", defaultName := some "price" },
  { specifier := "./price", defaultName := some "cost", named := [⟨"tax", some "vat", false⟩] }]

def kioskModule : SourceFile :=
  { ratedModule with
    path := "/app/kiosk.ts"
    text := String.intercalate "\n" (kioskImports.map (·.render)) }

/-- A project of both modules. -/
def kioskWork : Work where
  project := ⟨"/app", ⟨"@/", "/app"⟩, .full, [kioskModule, ratedModule]⟩

theorem kioskModule_holdsLines : HoldsLines .typescript kioskImports kioskModule :=
  ⟨by decide, rfl, by decide, .inl rfl⟩

set_option maxRecDepth 100000 in
theorem kiosk_adapts : kioskWork.project.Ordered ∧ ratedModule ∈ kioskWork.project.files ∧
    (∀ name, RereadsExactly (ByName name) fun f => (∃ ds, HoldsLines .typescript ds f) ∨
      ∃ o, f.read = .ok (some o) ∧ ∀ d ∈ o.imports, d.defaultName = none) ∧
    (∀ f ∈ kioskWork.project.files, ((∃ ds, HoldsLines .typescript ds f) ∨
      ∃ o, f.read = .ok (some o) ∧ ∀ d ∈ o.imports, d.defaultName = none) ∧
        f.read = .ok (some f.outlineD)) ∧
    (∀ f ∈ kioskWork.project.files, ∀ d ∈ f.outlineD.imports, d.Unmixed) ∧
    DefaultDeclared ratedModule.outlineD "price" ∧ KeepsImports "price" (· ∈ ratedModules) ∧
    ∃ touched w' g, (module ratedModule).run kioskWork = (.ok touched, w') ∧
      Adapted ratedModule g "price" kioskWork touched w' := by
  have ordered : kioskWork.project.Ordered := by
    unfold Project.Ordered
    decide +kernel
  have there : ratedModule ∈ kioskWork.project.files :=
    List.mem_cons_of_mem _ (List.mem_singleton_self _)
  have kiosk : kioskModule.read = .ok (some kioskModule.outlineD) := by
    rw [outlineD_of_read kioskModule_holdsLines.read, kioskModule_holdsLines.read]
  have rated : ratedModule.read = .ok (some ratedModule.outlineD) := by decide +kernel
  have free : ∀ d ∈ ratedModule.outlineD.imports, d.defaultName = none := by decide +kernel
  have errorFree : ∀ f ∈ kioskWork.project.files, ((∃ ds, HoldsLines .typescript ds f) ∨
      ∃ o, f.read = .ok (some o) ∧ ∀ d ∈ o.imports, d.defaultName = none) ∧
        f.read = .ok (some f.outlineD) :=
    List.forall_mem_cons.mpr ⟨⟨.inl ⟨_, kioskModule_holdsLines⟩, kiosk⟩,
      List.forall_mem_singleton.mpr ⟨.inr ⟨_, rated, free⟩, rated⟩⟩
  have unmixed : ∀ f ∈ kioskWork.project.files, ∀ d ∈ f.outlineD.imports, d.Unmixed := by
    decide +kernel
  have declared : DefaultDeclared ratedModule.outlineD "price" :=
    convertibleName?_eq_some_iff.mp (by decide +kernel)
  have same : ∀ f ∈ ratedModules, imports? f =
      some [{ specifier := "./rate", named := [⟨"rate", none, false⟩] }] := by decide +kernel
  exact ⟨ordered, there, byName_rereadsExactly .typescript, errorFree, unmixed, declared,
    keepsImports_of_staysWithin same (by decide +kernel) (by decide +kernel),
    (module_adapts ordered there (byName_rereadsExactly .typescript) errorFree unmixed).1 "price"
      declared⟩

end Normalize

end ModuleRepair
