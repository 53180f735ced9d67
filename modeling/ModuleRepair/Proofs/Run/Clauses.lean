import ModuleRepair.Proofs.Project.Evolve
import ModuleRepair.Proofs.SourceFile.Rewriting
import ModuleRepair.Run.Passes

/-!
# Which clauses the passes write

Four passes rewrite imports: the conversion of default exports, the repair by diagnostics, the
repair by a build log and the organizing of imports. All they do to a project is a list of
rewritings of its modules. An impossible clause is written by the first of them only, where a
default binding stands beside a namespace (`Pass.writes_impossible_iff`).
-/
namespace ModuleRepair

open ModuleRepair.Script ModuleRepair.SourceFile Relation

/-- Changes the imports of one file and counts them; answers its path when there were any. -/
def Attempt.rewrite (rewrite : Project → Except LanguageError (SourceFile × Nat)) :
    Attempt (Option String) := do
  let (f, count) ← Attempt.of (rewrite (← get).project)
  if count = 0 then return none
  Work.putFile f
  Work.count fun s => { s with importsFixed := s.importsFixed + count }
  return some f.path

theorem Attempt.rewrite_run (rewrite : Project → Except LanguageError (SourceFile × Nat))
    (w : Work) : (Attempt.rewrite rewrite).run w =
      match rewrite w.project with
      | .error e => (.error e, w)
      | .ok (f, count) => if count = 0 then (.ok none, w)
        else (.ok (some f.path), { w with
          project := w.project.put f
          stats := { w.stats with importsFixed := w.stats.importsFixed + count } }) := by
  unfold Attempt.rewrite
  rw [Attempt.run_get_bind, Attempt.run_bind, Attempt.of_run]
  rcases rewrite w.project with e | ⟨f, count⟩
  · rfl
  · dsimp only
    split <;> rfl

theorem Attempt.rewrite_eq_ok (rewrite : Project → Except LanguageError (SourceFile × Nat))
    (h : ∀ p, ∃ f count, rewrite p = .ok (f, count)) (w : Work) :
    ∃ path w', (Attempt.rewrite rewrite).run w = (.ok path, w') := by
  obtain ⟨f, count, rewritten⟩ := h w.project
  rw [rewrite_run, rewritten]
  dsimp only
  split <;> exact ⟨_, _, rfl⟩

theorem Attempt.revises_rewrite {change : SourceFile → SourceFile → Prop}
    (rewrite : SourceFile → Project → Except LanguageError (SourceFile × Nat))
    (path : ∀ {f g}, ReflTransGen change f g → g.path = f.path)
    (h : ∀ {f p g count}, rewrite f p = .ok (g, count) → ReflTransGen change f g) :
    Attempt.Revises change fun f => Attempt.rewrite (rewrite f) := by
  intro f w
  rw [Attempt.rewrite_run]
  cases rewritten : rewrite f w.project with
  | error e => exact .inl rfl
  | ok result =>
    obtain ⟨g, count⟩ := result
    dsimp only
    split
    · exact .inl rfl
    · exact .inr ⟨g, h rewritten, path (h rewritten), rfl⟩

theorem revises_importer (target name : String) :
    Attempt.Revises (Rewriting WritesByName) (Normalize.importer target name) := by
  refine Attempt.revises_rewrite (fun f p => p.rewriteImporter target name f)
    path_of_rewritings fun {f p g count} h => ?_
  simp only [Project.rewriteImporter, bind, Except.bind] at h
  split at h
  · cases h
  · exact rewriteDefaults_rewrites h

theorem revises_consumer (m : Mismatch) (defining : String) :
    Attempt.Revises (Rewriting WritesClauses) (BuildLog.consumer m defining) := by
  refine Attempt.revises_rewrite (fun f p => p.rewriteConsumer m defining f)
    path_of_rewritings fun {f p g count} h => ?_
  simp only [Project.rewriteConsumer, bind, Except.bind] at h
  split at h
  · cases h
  · exact rewriteMismatch_rewrites h

/-- The modules of a project but one, each as it is. -/
theorem Project.Ordered.others {p : Project} (h : p.Ordered) (path : String) :
    ((p.files.filter (·.path ≠ path)).map (·.path)).Nodup ∧
      ∀ f ∈ p.files.filter (·.path ≠ path), p.find? f.path = some f :=
  ⟨h.nodup.sublist (List.filter_sublist.map _), fun _ hf =>
    h.find?_of_mem (List.mem_filter.mp hf).1⟩

/-! ## The passes -/

/-- How one module is converted: first the others that import it, then the module itself. -/
theorem Normalize.module_run (f : SourceFile) (w : Work) :
    (Normalize.module f).run w =
      match f.outline with
      | .error e => (.error e, w)
      | .ok o =>
        match convertibleName? o with
        | none => (.ok [], w)
        | some name =>
          match ((w.project.files.filter (·.path ≠ f.path)).filterMapM
              (importer f.path name)).run w with
          | (.error e, w) => (.error e, w)
          | (.ok touched, w) =>
            match exportByName f name with
            | .error e => (.error e, w)
            | .ok g =>
              let stats := { w.stats with exportsRefactored := w.stats.exportsRefactored + 1 }
              (.ok (touched ++ [f.path]), { w with project := w.project.put g, stats }) := by
  unfold Normalize.module
  rw [Attempt.run_bind, Attempt.of_run]
  cases f.outline with
  | error e => rfl
  | ok o =>
    dsimp only
    cases convertibleName? o with
    | none => rfl
    | some name =>
      dsimp only
      rw [Attempt.run_get_bind, Attempt.run_bind]
      generalize ((w.project.files.filter (·.path ≠ f.path)).filterMapM
        (importer f.path name)).run w = outcome
      rcases outcome with ⟨e | touched, w'⟩
      · rfl
      · dsimp only
        rw [Attempt.run_bind, Attempt.of_run]
        generalize exportByName f name = exported
        cases exported <;> rfl

theorem evolves_module {f : SourceFile} {w : Work} (ordered : w.project.Ordered)
    (found : w.project.find? f.path = some f) :
    w.project.Evolves (Rewriting WritesByName) ((Normalize.module f).run w).2.project := by
  rw [Normalize.module_run]
  cases f.outline with
  | error e => exact .refl ordered
  | ok o =>
    dsimp only
    cases Normalize.convertibleName? o with
    | none => exact .refl ordered
    | some name =>
      dsimp only
      obtain ⟨nodup, current⟩ := ordered.others f.path
      obtain ⟨evolves, others⟩ := (revises_importer f.path name).filterMapM ordered nodup current
      have still := others f.path (by simp)
      generalize ((w.project.files.filter (·.path ≠ f.path)).filterMapM
        (Normalize.importer f.path name)).run w = outcome at evolves still ⊢
      rcases outcome with ⟨e | touched, w'⟩
      · exact evolves
      · dsimp only
        generalize exported : Normalize.exportByName f name = result
        cases result with
        | error e => exact evolves
        | ok g =>
          have changes : ReflTransGen (Rewriting WritesByName) f g :=
            exportByName_rewrites exported
          exact evolves.trans (.put evolves.ordered (still.trans found) (path_of_rewritings changes)
            changes)

theorem find?_of_get? {p : Project} {path : String} {f : SourceFile} (h : p.get? path = some f) :
    p.find? f.path = some f := by
  have found : p.find? (p.resolvePath path) = some f := h
  rwa [← Project.path_of_find? found] at found

theorem evolves_path (path : String) :
    (Normalize.path path).Evolves (Rewriting WritesByName) := by
  intro w ordered
  unfold Normalize.path
  rw [Step.run_get_bind]
  generalize found : w.project.get? path = module
  cases module with
  | none => exact .refl ordered
  | some f =>
    dsimp only
    rw [Attempt.orReport_project]
    exact evolves_module ordered (find?_of_get? found)

theorem evolves_repairOne (m : Mismatch) :
    Step.Evolves (Rewriting WritesClauses) (BuildLog.repairOne m).run := by
  intro w ordered
  change w.project.Evolves _ ((BuildLog.repairOne m).run w).2.project
  unfold BuildLog.repairOne
  rw [Attempt.run_get_bind]
  cases w.project.locate? m.specifier with
  | none => exact .refl ordered
  | some defining =>
    dsimp only
    rw [Attempt.run_bind, Attempt.of_run]
    cases defining.outline with
    | error e => exact .refl ordered
    | ok o =>
      dsimp only
      split
      · exact .refl ordered
      · obtain ⟨nodup, current⟩ := ordered.others defining.path
        rw [Attempt.run_bind]
        exact ((revises_consumer m defining.path).filterMapM ordered nodup current).1

theorem evolves_fixOne (r : Repairs) (path : String) (d : Diagnostic) :
    ((r.fixOne path d).orReport none (.diagnosticFailed d.code)).Evolves
      (Rewriting WritesClauses) := by
  intro w ordered
  rw [Repairs.fixOne_project]
  split
  · next fix f classified found =>
    split
    · next f' text applied =>
      have edited := Repairs.apply_edited (List.mem_singleton.mpr rfl) applied
      refine .put ordered (Project.path_of_find? found ▸ found) edited.path.1 ?_
      exact ReflTransGen.mono (fun _ _ => Repairs.repairing_rewrites) _ _ edited
    · exact .refl ordered
  · exact .refl ordered

theorem evolves_organizeOne (path : String) :
    (Run.organizeOne path).Evolves (Rewriting WritesClauses) := by
  intro w ordered
  unfold Run.organizeOne
  rw [Step.run_get_bind]
  generalize found : w.project.get? path = module
  cases module with
  | none => exact .refl ordered
  | some f =>
    dsimp only
    rw [Attempt.orReport_project, Attempt.run_bind, Attempt.of_run]
    cases organized : f.organize with
    | error e => exact .refl ordered
    | ok g =>
      have changes := organize_rewrites organized
      exact .put ordered (find?_of_get? found) (path_of_rewritings changes) changes

theorem evolves_normalize (allowed : List String) :
    (Normalize.paths allowed).Evolves (Rewriting WritesByName) := by
  unfold Normalize.paths
  exact (Step.Evolves.mapM evolves_path allowed).bind fun _ => .pure _

theorem evolves_repair (log : String) :
    (BuildLog.repair log).Evolves (Rewriting WritesClauses) := by
  unfold BuildLog.repair
  exact (Step.Evolves.mapM (fun m => (evolves_repairOne m).orReport [] _) _).bind fun _ => .pure _

theorem evolves_fixFiles (r : Repairs) (paths : List String) (diagnostics : DiagnosticsByFile) :
    (r.fixFiles paths diagnostics).Evolves (Rewriting WritesClauses) := by
  unfold Repairs.fixFiles
  refine (Step.Evolves.mapM (fun path => ?_) paths).bind fun _ => .pure _
  exact (Step.Evolves.filterMapM (evolves_fixOne r path) _).bind fun _ => .pure _

/-- The passes that rewrite imports. -/
inductive Pass where
  | normalize (allowed : List String)
  | fix (repairs : Repairs) (paths : List String) (diagnostics : DiagnosticsByFile)
  | mend (log : String)
  | organize (path : String)

namespace Pass

/-- What a pass does. -/
def step : Pass → Step Unit
  | normalize allowed => do let _ ← Normalize.paths allowed
  | fix repairs paths diagnostics => do let _ ← repairs.fixFiles paths diagnostics
  | mend log => do let _ ← BuildLog.repair log
  | organize path => Run.organizeOne path

/-- Whether a pass converts default exports. -/
def normalizes : Pass → Bool
  | normalize _ => true
  | _ => false

/-- A pass rewrites modules and nothing else. An impossible clause is written only where default
exports are converted, and there for every import that has a namespace. -/
theorem writes_impossible_iff (pass : Pass) {w : Work} (h : w.project.Ordered) :
    w.project.Evolves (Rewriting fun d new => (∃ e ∈ new, ¬ e.IsClause) ↔
        pass.normalizes = true ∧ (given d.namespaceName).isSome = true)
      (pass.step.run w).2.project := by
  have possible (d : Import) (new : List Import) (fits : WritesClauses d new) :
      (∃ e ∈ new, ¬ e.IsClause) ↔ false = true ∧ (given d.namespaceName).isSome = true := by
    simpa [WritesClauses] using fits
  have byName (d : Import) (new : List Import) (fits : WritesByName d new) :
      (∃ e ∈ new, ¬ e.IsClause) ↔ true = true ∧ (given d.namespaceName).isSome = true := by
    obtain ⟨name, -, rfl⟩ := fits
    simp [Import.isClause_defaultToNamed, Option.isSome_iff_ne_none]
  cases pass with
  | normalize allowed =>
    have evolves := (evolves_normalize allowed).bind (fun _ => .pure ()) w h
    exact evolves.mono fun _ _ => Rewriting.mono byName
  | fix repairs paths diagnostics =>
    have evolves := (evolves_fixFiles repairs paths diagnostics).bind (fun _ => .pure ()) w h
    exact evolves.mono fun _ _ => Rewriting.mono possible
  | mend log =>
    have evolves := (evolves_repair log).bind (fun _ => .pure ()) w h
    exact evolves.mono fun _ _ => Rewriting.mono possible
  | organize path =>
    exact (evolves_organizeOne path w h).mono fun _ _ => Rewriting.mono possible

end Pass

/-- A module with a default export that other modules can import by name. -/
def priceModule : SourceFile where
  path := "/app/price.ts"
  text := "function price() {}\nexport const tax = 1;\nexport default price;\n"
  saved := ""
  root := ⟨"@/", "/app"⟩

/-- A module that imports its default export and all of it. -/
def shopModule : SourceFile where
  path := "/app/shop.ts"
  text := "import price, * as prices from \"./price\";\n\nprice(prices.tax);\n"
  saved := ""
  root := ⟨"@/", "/app"⟩

/-- A project of the two. -/
def shopWork : Work where
  project := ⟨"/app", ⟨"@/", "/app"⟩, .full, [priceModule, shopModule]⟩

theorem shop_ordered : shopWork.project.Ordered := by
  unfold Project.Ordered
  decide +kernel

theorem shop_writes_impossible_iff : shopWork.project.Ordered ∧
    shopWork.project.Evolves (Rewriting fun d new => (∃ e ∈ new, ¬ e.IsClause) ↔
        (Pass.normalize ["price.ts"]).normalizes = true ∧ (given d.namespaceName).isSome = true)
      ((Pass.normalize ["price.ts"]).step.run shopWork).2.project :=
  ⟨shop_ordered, Pass.writes_impossible_iff (.normalize ["price.ts"]) shop_ordered⟩

/-- The import of the second module. -/
def shopImport : Import where
  specifier := "./price"
  defaultName := some "price"
  namespaceName := some "prices"
  span := ⟨0, 41⟩

set_option maxRecDepth 100000 in
/-- Both modules are read without errors. The conversion then writes a namespace beside braces, and
the second module is broken. -/
theorem shop_broken : (∃ o, priceModule.read = .ok (some o)) ∧
    shopModule.read = .ok (some { imports := [shopImport] }) ∧
    ((Pass.normalize ["price.ts"]).step.run shopWork).2.project.find? "/app/shop.ts" =
      some (shopModule.replaceImport shopImport [shopImport.defaultToNamed "price"]) ∧
    ¬ (shopImport.defaultToNamed "price").IsClause ∧
    (shopModule.replaceImport shopImport [shopImport.defaultToNamed "price"]).read = .ok none := by
  have typed : Language.ofPath "/app/shop.ts" = .ok .typescript := rfl
  have price : (outline? .typescript priceModule.text).isSome = true := by decide +kernel
  obtain ⟨o, ho⟩ := Option.isSome_iff_exists.mp price
  refine ⟨⟨o, read_of_outline? rfl ho⟩, read_of_outline? typed (by decide +kernel),
    by decide +kernel, ?_, read_of_outline? typed (by decide +kernel)⟩
  rw [Import.isClause_defaultToNamed]
  decide

end ModuleRepair
