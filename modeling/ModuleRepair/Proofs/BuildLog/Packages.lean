import ModuleRepair.Proofs.BuildLog.Complete
import ModuleRepair.Proofs.SourceFile.Edited

/-!
# Imports of packages

A specifier that is neither an alias nor relative names a package, and leads to no module. The
repair by a build log switches imports of packages only if they are written with a reported
specifier (`BuildLog.repair_spares_packages`). Then a module of the project has been taken for the
package, because its path ends with the name of the package.
-/
namespace ModuleRepair

open ModuleRepair.Text ModuleRepair.Script ModuleRepair.SourceFile Relation

/-- A specifier that is neither an alias nor relative. -/
def AliasRoot.IsPackage (r : AliasRoot) (specifier : String) : Prop :=
  ¬ r.mark.toList <+: specifier.toList ∧ specifier.toList.head? ≠ some '.'

/-! ## Edits -/

/-- Rewriting the imports of a kind is an edit of one of them after the other. -/
theorem SourceFile.rewriteWhere_edited {q : Import → Bool} {t : Import → Option Import}
    {n count : Nat} {f g : SourceFile} (h : rewriteWhere q t n f = .ok (g, count)) :
    Edited (fun ds e => ∃ i d new, ds[i]? = some d ∧ q d = true ∧ t d = some new ∧
      e = .replace i [new]) f g := by
  induction n generalizing f count with
  | zero =>
    cases h
    exact .refl
  | succ n ih =>
    simp only [rewriteWhere, bind, Except.bind] at h
    split at h
    · cases h
    · next o ho =>
      split at h
      · cases h
        exact .refl
      · next d found =>
        split at h
        · cases h
          exact .refl
        · next new rewritten =>
          split at h
          · cases h
          · next rest =>
            cases h
            refine .head (.replace ho (List.mem_of_find?_eq_some found) fun i there => ?_) (ih rest)
            exact ⟨i, d, new, there, List.find?_some found, rewritten, rfl⟩

namespace Project

variable {p q : Project} {m : Mismatch} {consumer defining specifier directory : String}
  {d : Import} {change : SourceFile → SourceFile}

/-- A package leads to no module. -/
theorem resolve?_package (package : p.root.IsPackage specifier) (importer : String) :
    p.resolve? importer specifier = none := by
  have noAlias : afterStart? p.root.mark.toList specifier.toList = none := by
    refine Option.eq_none_iff_forall_ne_some.mpr fun below found => package.1 ?_
    exact ⟨below, (afterStart?_eq_some_iff.mp found).symm⟩
  simp only [resolve?, basePath?, noAlias, if_neg package.2]

/-- An import of a package is about a reported name only if it is written as in the report. -/
theorem specifier_of_importsMismatch (package : p.root.IsPackage d.specifier)
    (h : p.importsMismatch m consumer defining d = true) : d.specifier = m.specifier := by
  rcases (importsMismatch_iff.mp h).leads with same | ⟨g, resolved, -⟩
  · exact same
  · rw [resolve?_package package] at resolved
    cases resolved

/-- While modules change under their paths, a specifier leads to the same one. -/
theorem locate?_mapFiles (path : ∀ f ∈ p.files, (change f).path = f.path)
    (own : ∀ f ∈ p.files, (change f).specifier? = f.specifier?) (specifier : String) :
    (p.mapFiles change).locate? specifier = (p.locate? specifier).map change := by
  have exact_eq : (p.mapFiles change).findSpecifier? specifier =
      (p.findSpecifier? specifier).map change :=
    find?_files_mapFiles fun f hf => by rw [own f hf]
  have ends_eq : (p.mapFiles change).files.find? (endsWith (p.root.tail specifier)) =
      (p.files.find? (endsWith (p.root.tail specifier))).map change :=
    find?_files_mapFiles fun f hf => by rw [endsWith, path f hf, endsWith]
  have root_eq : (p.mapFiles change).root = p.root := rfl
  unfold locate?
  rw [exact_eq, root_eq]
  cases p.findSpecifier? specifier with
  | some f => rfl
  | none =>
    dsimp only [Option.map_none]
    rw [ends_eq]
    split <;> rfl

theorem Readable.mapFiles (h : p.Readable directory)
    (own : ∀ f ∈ p.files, (change f).path = f.path) : (p.mapFiles change).Readable directory where
  ordered := h.ordered.mapFiles own
  directory_eq := h.directory_eq
  normal := List.forall_mem_map.mpr fun f hf => by rw [own f hf, h.normal f hf]
  supported := List.forall_mem_map.mpr fun f hf => by rw [own f hf, h.supported f hf]

end Project

namespace BuildLog

variable {p : Project} {w : Work} {ms all : List Mismatch} {path directory : String}
  {files : SourceFile → Prop} {f g : SourceFile} {o : Outline}

/-- Whether a report is taken to be about a module other than the one under a path. Some imports of
that module may have been switched before; then it has a default export, and no export of the
reported name. -/
def IsTaken (p : Project) (path : String) (m : Mismatch) : Prop :=
  ∃ defining now, p.locate? m.specifier = some defining ∧ defining.path ≠ path ∧
    Edited (fun ds e => ∃ name, Switching name ds e) defining now ∧
    now.outlineD.defaultExport.isSome = true ∧ m.name ∉ now.outlineD.namedExports

/-- An edit that switches an import for one of several reports, unless it is an import of a package
that is written with another specifier. -/
def Spares (p : Project) (ms : List Mismatch) (path : String) (ds : List Import) (e : Edit) :
    Prop :=
  ∃ m ∈ ms, IsTaken p path m ∧ ∃ i d new, ds[i]? = some d ∧ d.namedToDefault? m.name = some new ∧
    e = .replace i [new] ∧ (p.root.IsPackage d.specifier → d.specifier = m.specifier)

/-- Whether one of several reports is about an import as it is written. -/
def IsReported (p : Project) (ms : List Mismatch) (path : String) (d : Import) : Prop :=
  ∃ m ∈ ms, IsTaken p path m ∧ m.specifier = d.specifier ∧
    (d.namedToDefault? m.name).isSome = true

/-! ## One report -/

/-- The edits by which one report is repaired. -/
def Mends (p : Project) (m : Mismatch) (path : String) (ds : List Import) (e : Edit) : Prop :=
  ∃ defining, Repairable p m defining ∧ defining.path ≠ path ∧ ∃ i d new, ds[i]? = some d ∧
    p.importsMismatch m path defining.path d = true ∧ d.namedToDefault? m.name = some new ∧
    e = .replace i [new]

theorem outlineD_of_outline (ho : f.outline = .ok o) : f.outlineD = o := by
  unfold outlineD
  rw [ho]

/-- The repair of one report edits imports of the modules. -/
theorem repairOne_mends (readable : w.project.Readable directory) (m : Mismatch) :
    ∃ change, ((repairOne m).run w).2.project = w.project.mapFiles change ∧
      ∀ f ∈ w.project.files, Edited (Mends w.project m f.path) f (change f) := by
  have unchanged : w.project = w.project.mapFiles id :=
    (Project.mapFiles_eq_self fun _ _ => rfl).symm
  rw [repairOne_run]
  cases located : w.project.locate? m.specifier with
  | none => exact ⟨id, unchanged, fun _ _ => .refl⟩
  | some defining =>
    dsimp only
    cases offered : defining.outline with
    | error e => exact ⟨id, unchanged, fun _ _ => .refl⟩
    | ok offers =>
      dsimp only
      split
      · exact ⟨id, unchanged, fun _ _ => .refl⟩
      · next agreed =>
        simp only [Bool.or_eq_true, not_or, Option.isNone_iff_eq_none, List.contains_iff_mem,
          ← ne_eq, ← Option.isSome_iff_ne_none] at agreed
        have repairable : Repairable w.project m defining :=
          ⟨located, by rw [outlineD_of_outline offered]; exact agreed.1,
            by rw [outlineD_of_outline offered]; exact agreed.2⟩
        have succeeds : ∀ f ∈ w.project.files,
            (Project.consumerSweep m defining.path).Succeeds w.project f := fun f hf => by
          obtain ⟨l, language⟩ := readable.language hf
          exact Sweep.allOf_succeeds language
        have stable : ∀ f q, w.project.SamePaths q → Project.consumerSweep m defining.path f q =
            Project.consumerSweep m defining.path f w.project :=
          fun f q same => Sweep.allOf_stable (same.importsMismatch_eq m defining.path) f
        rw [Project.consumer_eq, Attempt.others_swept stable readable.ordered defining.path
          fun f hf _ => succeeds f hf]
        refine ⟨_, rfl, fun f hf => ?_⟩
        split
        · exact .refl
        · next other =>
          have rewritten := (succeeds f hf).eq_ok
          simp only [Project.consumerSweep, Sweep.allOf, bind, Except.bind] at rewritten
          split at rewritten
          · cases rewritten
          · refine ReflTransGen.mono (fun f' g step => ?_) _ _ (rewriteWhere_edited rewritten)
            obtain ⟨o, e, ho, ⟨i, d, new, there, about, switched, same⟩, he⟩ := step
            exact ⟨o, e, ho, ⟨defining, repairable, Ne.symm other, i, d, new, there, about,
              switched, same⟩, he⟩

/-! ## All reports of a log -/

/-- A module of the project comes from one of an earlier project by edits that spare packages. -/
def Spared (p : Project) (ms : List Mismatch) (q : Project) : Prop :=
  ∃ change, q = p.mapFiles change ∧ ∀ f ∈ p.files, Edited (Spares p ms f.path) f (change f)

theorem Spares.switches {ds : List Import} {e : Edit} (h : Spares p ms path ds e) :
    ∃ name, Switching name ds e := by
  obtain ⟨m, -, -, i, d, new, there, switched, rfl, -⟩ := h
  exact ⟨m.name, .switched there switched⟩

/-- What repairs one of the reports spares packages. -/
theorem Spared.spares {q : Project} (h : Spared p ms q) {m : Mismatch} (hm : m ∈ ms)
    {ds : List Import} {e : Edit} (mends : Mends q m path ds e) : Spares p ms path ds e := by
  obtain ⟨change, rfl, edits⟩ := h
  obtain ⟨now, repairable, other, i, d, new, there, about, switched, rfl⟩ := mends
  have found := repairable.located
  rw [Project.locate?_mapFiles (fun f hf => (edits f hf).path.1)
    fun f hf => (edits f hf).specifier?_eq] at found
  obtain ⟨defining, located, rfl⟩ := Option.map_eq_some_iff.mp found
  have start := edits defining (Project.mem_of_locate? located)
  have taken : IsTaken p path m := by
    refine ⟨defining, change defining, located, start.path.1 ▸ other, ?_, repairable.default,
      repairable.missing⟩
    refine ReflTransGen.mono (fun f g step => ?_) _ _ start
    obtain ⟨o, e, ho, may, he⟩ := step
    exact ⟨o, e, ho, may.switches, he⟩
  exact ⟨m, hm, taken, i, d, new, there, switched, rfl,
    fun package => Project.specifier_of_importsMismatch (p := p.mapFiles change) package about⟩

theorem Spared.readable {q : Project} (h : Spared p ms q) (readable : p.Readable directory) :
    q.Readable directory := by
  obtain ⟨change, rfl, edits⟩ := h
  exact readable.mapFiles fun f hf => (edits f hf).path.1

theorem Spared.mapFiles {q : Project} (h : Spared p ms q) {change : SourceFile → SourceFile}
    (edits : ∀ f ∈ q.files, Edited (Spares p ms f.path) f (change f)) :
    Spared p ms (q.mapFiles change) := by
  obtain ⟨before, rfl, start⟩ := h
  refine ⟨change ∘ before, Project.mapFiles_mapFiles .., fun f hf => (start f hf).trans ?_⟩
  have next := edits (before f) (List.mem_map_of_mem hf)
  rwa [(start f hf).path.1] at next

/-- The repair of several reports, one after the other. -/
theorem repairAll_spares (readable : p.Readable directory) (inside : ∀ m ∈ ms, m ∈ all)
    (h : Spared p all w.project) :
    Spared p all ((ms.mapM fun m =>
      (repairOne m).orReport [] (.mismatchFailed m.name m.specifier)).run w).2.project := by
  induction ms generalizing w with
  | nil => exact h
  | cons m ms ih =>
    obtain ⟨here, later⟩ := List.forall_mem_cons.mp inside
    rw [Step.mapM_cons]
    refine ih later ?_
    rw [Attempt.orReport_project]
    obtain ⟨change, run, edits⟩ := repairOne_mends (h.readable readable) m
    rw [run]
    refine h.mapFiles fun f hf => ?_
    refine ReflTransGen.mono (fun f' g step => ?_) _ _ (edits f hf)
    obtain ⟨o, e, ho, mends, he⟩ := step
    exact ⟨o, e, ho, h.spares here mends, he⟩

/-! ## What becomes of an import -/

/-- An import and what it has become: the specifier is the same, and so is an import of a package,
unless it is written as in a report. -/
def Kept (p : Project) (ms : List Mismatch) (path : String) (d e : Import) : Prop :=
  e.specifier = d.specifier ∧
    (p.root.IsPackage d.specifier → e.normal = d.normal ∨ IsReported p ms path d)

theorem IsReported.of_normal {d e : Import} (same : e.normal = d.normal)
    (h : IsReported p ms path e) : IsReported p ms path d := by
  obtain ⟨m, hm, taken, specifier, bound⟩ := h
  have switched := congrArg Option.isSome (Import.namedToDefault?_normal e m.name)
  rw [same, Import.namedToDefault?_normal] at switched
  simp only [Option.isSome_map] at switched
  have written : e.normal.specifier = d.normal.specifier := by rw [same]
  exact ⟨m, hm, taken, specifier.trans written, switched.trans bound⟩

theorem Kept.trans {d e k : Import} (h : Kept p ms path d e) (h' : Kept p ms path e k) :
    Kept p ms path d k := by
  refine ⟨h'.1.trans h.1, fun package => ?_⟩
  rcases h.2 package with same | reported
  · rcases h'.2 (h.1 ▸ package) with same' | reported
    · exact .inl (same'.trans same)
    · exact .inr (reported.of_normal same)
  · exact .inr reported

theorem Kept.refl (d : Import) : Kept p ms path d d :=
  ⟨rfl, fun _ => .inl rfl⟩

theorem kept_trans {ds es ks : List Import} (h : List.Forall₂ (Kept p ms path) ds es)
    (h' : List.Forall₂ (Kept p ms path) es ks) : List.Forall₂ (Kept p ms path) ds ks := by
  induction h generalizing ks with
  | nil => exact h'
  | cons first _ ih =>
    cases h' with
    | cons first' rest' => exact .cons (first.trans first') (ih rest')

/-- An edit that spares packages keeps the imports of a module that is read as it was edited. -/
theorem kept_of_step (rereads : Rereads (Spares p ms path) files) (hf : files f)
    (hr : f.read = .ok (some o)) (step : EditStep (Spares p ms path) f g) :
    files g ∧ ∃ o', g.read = .ok (some o') ∧
      List.Forall₂ (Kept p ms path) o.imports o'.imports := by
  obtain ⟨o₁, e, ho, spares, he⟩ := step
  obtain rfl : o = o₁ := Except.ok.inj ((outline_of_read hr).symm.trans ho)
  obtain ⟨hg, o', hr', alike, -⟩ := rereads f o e g hf hr spares he
  refine ⟨hg, o', hr', ?_⟩
  obtain ⟨m, hm, taken, i, d, new, there, switched, rfl, written⟩ := spares
  obtain ⟨front, back, split, rfl⟩ := split_of_getElem? there
  have reported : p.root.IsPackage d.specifier → IsReported p ms path d := fun package =>
    ⟨m, hm, taken, (written package).symm, by rw [switched]; rfl⟩
  have same : new.specifier = d.specifier := by
    obtain ⟨-, front, b, back, -, -, -, rfl⟩ := Import.namedToDefault?_eq_some switched
    rfl
  -- The imports are compared in normal form, as they are read back.
  have view (d e : Import) : Kept p ms path d e ↔ Kept p ms path d e.normal := by
    simp only [Kept, Import.normal_specifier, Import.normal_normal]
  have kept (ds : List Import) :
      List.Forall₂ (Kept p ms path) ds (ds.map (·.normal)) :=
    List.forall₂_map_right_iff.mpr (List.forall₂_same.mpr fun d _ => (view d d).mp (.refl d))
  have edited : o'.imports.map (·.normal) =
      front.map (·.normal) ++ new.normal :: back.map (·.normal) := by
    rw [alike, Edit.imports, split]
    simp
  have each : List.Forall₂ (Kept p ms path) o.imports (o'.imports.map (·.normal)) := by
    rw [edited, split]
    refine List.rel_append (kept front) (.cons ?_ (kept back))
    exact (view d new).mp ⟨same, fun package => .inr (reported package)⟩
  exact (List.forall₂_map_right_iff.mp each).imp fun d e => (view d e).mpr

theorem kept_of_edited (rereads : Rereads (Spares p ms path) files) (hf : files f)
    (hr : f.read = .ok (some o)) (edits : Edited (Spares p ms path) f g) :
    files g ∧ ∃ o', g.read = .ok (some o') ∧
      List.Forall₂ (Kept p ms path) o.imports o'.imports := by
  induction edits with
  | refl => exact ⟨hf, o, hr, List.forall₂_same.mpr fun d _ => .refl d⟩
  | tail _ step ih =>
    obtain ⟨hg, o₁, hr₁, kept⟩ := ih
    obtain ⟨hg', o', hr', kept'⟩ := kept_of_step rereads hg hr₁ step
    exact ⟨hg', o', hr', kept_trans kept kept'⟩

/-- **Imports of packages are spared.** Whatever the repair of a log makes of a module comes about
by edits, none of which changes an import of a package that is not written as reported. Where
modules are read as they were edited, all other imports of packages are there as they were. -/
theorem repair_spares_packages (readable : w.project.Readable directory) (log : String) :
    ∀ f ∈ w.project.files, ∃ g, ((repair log).run w).2.project.find? f.path = some g ∧
      Edited (Spares w.project (mismatches log) f.path) f g ∧
      ∀ files o, Rereads (Spares w.project (mismatches log) f.path) files → files f →
        f.read = .ok (some o) → ∃ o', g.read = .ok (some o') ∧
          List.Forall₂ (Kept w.project (mismatches log) f.path) o.imports o'.imports := by
  intro f hf
  have unchanged : Spared w.project (mismatches log) w.project :=
    ⟨id, (Project.mapFiles_eq_self fun _ _ => rfl).symm, fun _ _ => .refl⟩
  obtain ⟨change, run, edits⟩ := repairAll_spares readable (fun _ => id) unchanged
  have after : ((repair log).run w).2.project = w.project.mapFiles change := run
  refine ⟨change f, ?_, edits f hf, fun files o rereads mem hr =>
    (kept_of_edited rereads mem hr (edits f hf)).2⟩
  rw [after, Project.find?_mapFiles fun f hf => (edits f hf).path.1,
    readable.ordered.find?_of_mem hf]
  rfl

/-- Among import lines, what spares packages is read back. -/
theorem spares_rereads {l : Language} :
    Rereads (Spares p ms path) fun f => ∃ ds, HoldsLines l ds f := by
  intro f o e f' hf hr spares he
  obtain ⟨name, switching⟩ := spares.switches
  exact switching_rereads f o e f' hf hr switching he

/-- Imports of a package, and of a module of the project. -/
def hookImports : List Import := [
  { specifier := "react", named := [⟨"useThing", none, false⟩] },
  { specifier := "@/price", named := [⟨"Price", none, false⟩] }]

def hookPage : SourceFile where
  path := "/proj/src/app/page.ts"
  text := String.intercalate "\n" (hookImports.map (·.render))
  saved := ""
  root := ⟨"@/", "/proj/src"⟩

/-- A project in which two modules have default exports only. -/
def hookWork : Work where
  project := ⟨"/proj", ⟨"@/", "/proj/src"⟩, .full, [
    hookPage,
    { hookPage with
      path := "/proj/src/price.ts", text := "export default function price() \x7b\x7d\n" },
    { hookPage with
      path := "/proj/src/react.ts", text := "export default function React() \x7b\x7d\n" }]⟩

theorem hook_readable : hookWork.project.Readable "/proj" where
  ordered := by unfold Project.Ordered; decide +kernel
  directory_eq := rfl
  normal := by decide +kernel
  supported := by decide +kernel

theorem hookPage_holdsLines : HoldsLines .typescript hookImports hookPage :=
  ⟨by decide, rfl, by decide, .inl rfl⟩

/-- A log that is about the module. -/
def priceLog : String := "'Price' is not exported from '@/price'"

theorem hookPage_spared : hookWork.project.Readable "/proj" ∧
    (∀ f ∈ hookWork.project.files, ∃ g,
      ((repair priceLog).run hookWork).2.project.find? f.path = some g ∧
      Edited (Spares hookWork.project (mismatches priceLog) f.path) f g ∧
      ∀ files o, Rereads (Spares hookWork.project (mismatches priceLog) f.path) files → files f →
        f.read = .ok (some o) → ∃ o', g.read = .ok (some o') ∧
          List.Forall₂ (Kept hookWork.project (mismatches priceLog) f.path)
            o.imports o'.imports) ∧
    Rereads (Spares hookWork.project (mismatches priceLog) hookPage.path)
      (fun f => ∃ ds, HoldsLines .typescript ds f) ∧
    (∃ ds, HoldsLines .typescript ds hookPage) ∧
    hookPage.read = .ok (some { imports := placed 0 hookImports }) :=
  ⟨hook_readable, repair_spares_packages hook_readable priceLog, spares_rereads,
    ⟨_, hookPage_holdsLines⟩, hookPage_holdsLines.read⟩

/-- A module of the project is taken for a package, and an import of the package is switched. -/
theorem react_switched :
    let log := "Attempted import error: 'useThing' is not exported from 'react'."
    hookPage.read = .ok (some { imports := placed 0 hookImports }) ∧
      hookWork.project.root.IsPackage "react" ∧
      (((repair log).run hookWork).2.project.find? "/proj/src/app/page.ts").map (·.text) = some
        "import useThing from \"react\";\nimport \x7b Price \x7d from \"@/price\";" := by
  refine ⟨hookPage_holdsLines.read, ⟨?_, ?_⟩, ?_⟩ <;> decide +kernel

end BuildLog

end ModuleRepair
