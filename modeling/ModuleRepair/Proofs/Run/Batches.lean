import ModuleRepair.Proofs.Diagnostic.Independent
import ModuleRepair.Proofs.Run.Phase

/-!
# Batches of targets

The repair by diagnostics goes through the targets batch by batch. Since every file is fixed as if
it were alone, neither the order of the targets nor the size of a batch matters
(`Run.fixTargets_order`).
-/
namespace ModuleRepair

open ModuleRepair.Script ModuleRepair.SourceFile

namespace Target

/-- Batches are the targets in their order. -/
theorem flatten_batches {α : Type} (size : Nat) (targets : List α) :
    (batches size targets).flatten = targets := by
  induction targets using batches.induct size with
  | case1 => simp [batches]
  | case2 x rest ih => simp [batches, ih]

theorem flatten_batchesOf {α : Type} (limit : Option Int) (targets : List α) :
    (batchesOf limit targets).flatten = targets := by
  cases limit <;> exact flatten_batches ..

end Target

namespace Run

/-- Repairs given targets in batches of a given size. -/
def fixTargets (r : Run) (limit : Option Int) (targets : List String)
    (diagnostics : DiagnosticsByFile) : Phase (List String) := do
  let done := (← (Target.batchesOf limit targets).mapM (r.fixBatch diagnostics)).flatten
  modify fun s => { s with actions := done.flatMap (·.2) }
  return done.map (·.1)

/-- The pass is this, on its own targets and in batches of its own size. -/
theorem fixDiagnostics_eq (r : Run) (diagnostics : DiagnosticsByFile) :
    r.fixDiagnostics diagnostics = (do
      let s ← get
      r.fixTargets (r.settings.cap r.settings.limits.filesPerBatch)
        (Target.modules s.work.project r.job.files r.targets) diagnostics) :=
  rfl

variable {r : Run} {diagnostics : DiagnosticsByFile}

theorem check_in_time (time : ∀ n, r.deadline.expired (r.clock n) = false) (phase : String)
    (s : Session) : ∃ n, (r.check phase).run s = (.ok (), { s with readings := n }) := by
  rw [check_run]
  split
  · exact ⟨s.readings + 1, by simp [time]⟩
  · exact ⟨s.readings, rfl⟩

/-- In time, one batch fixes its files and counts them. -/
theorem fixBatch_run (time : ∀ n, r.deadline.expired (r.clock n) = false)
    (diagnostics : DiagnosticsByFile) (batch : List String) (s : Session) :
    let fixed := ((r.repairs s.surface).fixFiles batch diagnostics).run s.work
    ∃ n, (r.fixBatch diagnostics batch).run s = (.ok fixed.1, { s with
      readings := n
      work := { fixed.2 with stats := fixed.2.stats.plus batch.length 0 } }) := by
  obtain ⟨n, checked⟩ := check_in_time time "diagnostic fixes" s
  refine ⟨n, ?_⟩
  unfold fixBatch
  rw [Phase.run_bind, checked]
  rfl

/-- What is done to those of some files that change when each is fixed alone. -/
def actionsOf (repairs : Repairs) (diagnostics : DiagnosticsByFile) (start : Work)
    (targets : List String) : List (String × List FixAction) :=
  (targets.map fun path => (path, repairs.actionsAlone diagnostics start path)).filter
    (!·.2.isEmpty)

variable {repairs : Repairs} {start : Work}

theorem fixFiles_run {done batch : List String} {processed : Nat} {w : Work}
    (h : repairs.FixedEach diagnostics start done processed w)
    (keeps : ∀ path ∈ done ++ batch, Option.Rel Repairs.SameOffers (start.project.find? path)
      (repairs.moduleAlone diagnostics start path)) (nodup : (done ++ batch).Nodup) :
    ∃ w', (repairs.fixFiles batch diagnostics).run w =
        (actionsOf repairs diagnostics start batch, w') ∧
      repairs.FixedEach diagnostics start (done ++ batch) processed w' := by
  obtain ⟨w', run, fixed⟩ := h.mapM keeps nodup
  refine ⟨w', ?_, fixed⟩
  unfold Repairs.fixFiles
  rw [StateT.run_bind, run]
  rfl

/-- In time, batch after batch fixes each file as if it were alone. -/
theorem fixBatches_run (time : ∀ n, r.deadline.expired (r.clock n) = false)
    (batches : List (List String)) {done : List String} {s : Session}
    (h : (r.repairs s.surface).FixedEach diagnostics start done done.length s.work)
    (keeps : ∀ path ∈ done ++ batches.flatten, Option.Rel Repairs.SameOffers
      (start.project.find? path) ((r.repairs s.surface).moduleAlone diagnostics start path))
    (nodup : (done ++ batches.flatten).Nodup) :
    ∃ s', (batches.mapM (r.fixBatch diagnostics)).run s =
        (.ok (batches.map (actionsOf (r.repairs s.surface) diagnostics start)), s') ∧
      (r.repairs s.surface).FixedEach diagnostics start (done ++ batches.flatten)
        (done ++ batches.flatten).length s'.work := by
  induction batches generalizing done s with
  | nil => exact ⟨s, rfl, by simpa using h⟩
  | cons batch batches ih =>
    have split : done ++ (batch :: batches).flatten = (done ++ batch) ++ batches.flatten := by simp
    rw [split] at keeps nodup ⊢
    obtain ⟨w', run, fixed⟩ := fixFiles_run h (fun path there => keeps path
      (List.mem_append_left _ there)) (List.nodup_append.mp nodup).1
    obtain ⟨n, first⟩ := fixBatch_run time diagnostics batch s
    rw [run] at first
    have counted : (r.repairs s.surface).FixedEach diagnostics start (done ++ batch)
        (done ++ batch).length { w' with stats := w'.stats.plus batch.length 0 } :=
      { fixed with
        stats_eq := by
          change w'.stats.plus _ _ = _
          rw [fixed.stats_eq]
          simp [Stats.plus, Nat.add_assoc] }
    obtain ⟨s', rest, all⟩ := ih (s := { s with
      readings := n
      work := { w' with stats := w'.stats.plus batch.length 0 } }) counted keeps nodup
    refine ⟨s', ?_, all⟩
    rw [List.mapM_cons, Phase.run_bind, first]
    dsimp only
    rw [Phase.run_bind, rest]
    rfl

theorem flatten_actionsOf (batches : List (List String)) :
    (batches.map (actionsOf repairs diagnostics start)).flatten =
      actionsOf repairs diagnostics start batches.flatten := by
  simp only [actionsOf, List.map_flatten, List.filter_flatten, List.map_map]
  rfl

theorem touched_actionsOf (targets : List String) :
    (actionsOf repairs diagnostics start targets).map (·.1) =
      targets.filter fun path => !(repairs.actionsAlone diagnostics start path).isEmpty := by
  simp [actionsOf, List.filter_map, Function.comp_def]

theorem actions_actionsOf (targets : List String) :
    (actionsOf repairs diagnostics start targets).flatMap (·.2) =
      targets.flatMap (repairs.actionsAlone diagnostics start) := by
  induction targets with
  | nil => rfl
  | cons path targets ih =>
    simp only [actionsOf, List.map_cons, List.filter_cons, List.flatMap_cons] at ih ⊢
    split
    · rw [List.flatMap_cons, ih]
    · next none =>
      have none : repairs.actionsAlone diagnostics start path = [] := by simpa using none
      rw [ih, none, List.nil_append]

/-- Among the actions of distinct files, those of one file are what is done to it alone. -/
theorem filter_actions {targets : List String} (nodup : targets.Nodup) (path : String) :
    (targets.flatMap (repairs.actionsAlone diagnostics start)).filter (·.path = path) =
      if path ∈ targets then repairs.actionsAlone diagnostics start path else [] := by
  induction targets with
  | nil => rfl
  | cons target targets ih =>
    obtain ⟨fresh, nodup⟩ := List.nodup_cons.mp nodup
    have own := (repairs.fixFile_fixes target (diagnostics.of target) start).paths
    rw [List.flatMap_cons, List.filter_append, ih nodup]
    by_cases here : path = target
    · subst here
      rw [List.filter_eq_self.mpr fun a ha => by simpa using own a ha]
      simp [fresh]
    · rw [List.filter_eq_nil_iff.mpr fun a ha => by simpa [own a ha] using Ne.symm here]
      simp [here]

/-- In time, the targets are fixed each as if it were alone, in batches of any size. -/
theorem fixTargets_run (time : ∀ n, r.deadline.expired (r.clock n) = false) {s : Session}
    (limit : Option Int) (targets : List String)
    (keeps : ∀ path ∈ targets, Option.Rel Repairs.SameOffers (s.work.project.find? path)
      ((r.repairs s.surface).moduleAlone diagnostics s.work path))
    (nodup : targets.Nodup) :
    ∃ s', (r.fixTargets limit targets diagnostics).run s = (.ok (targets.filter fun path =>
        !((r.repairs s.surface).actionsAlone diagnostics s.work path).isEmpty), s') ∧
      (r.repairs s.surface).FixedEach diagnostics s.work targets targets.length s'.work ∧
      s'.actions = targets.flatMap ((r.repairs s.surface).actionsAlone diagnostics s.work) := by
  have whole := Target.flatten_batchesOf limit targets
  have start : (r.repairs s.surface).FixedEach diagnostics s.work [] 0 s.work := .refl
  obtain ⟨s', run, fixed⟩ := fixBatches_run time (Target.batchesOf limit targets) start
    (by simpa [whole] using keeps) (by simpa [whole] using nodup)
  rw [List.nil_append, whole] at fixed
  refine ⟨{ s' with actions := targets.flatMap _ }, ?_, fixed, rfl⟩
  unfold fixTargets
  rw [Phase.run_bind, run, ← touched_actionsOf, ← actions_actionsOf, ← whole, ← flatten_actionsOf,
    whole]
  rfl

end Run

namespace SourceFile

/-- Two readings of a module that export the same. -/
def SameExports (f g : SourceFile) : Prop :=
  ∃ o o', f.outline = .ok o ∧ g.outline = .ok o' ∧
    o'.defaultExport.map (fun d => (d.kind, d.localName)) =
      o.defaultExport.map (fun d => (d.kind, d.localName)) ∧
    o'.namedExports = o.namedExports

theorem SameExports.sameOffers {f g : SourceFile} (h : SameExports f g) :
    Repairs.SameOffers f g := by
  obtain ⟨o, o', before, after, default, named⟩ := h
  intro name
  have isNone : o'.defaultExport.isNone = o.defaultExport.isNone := by
    simpa using congrArg Option.isNone default
  simp only [Repairs.offersByNameOnly, before, after, bind, Except.bind, isNone, named]

end SourceFile

namespace Run

variable {r : Run} {diagnostics : DiagnosticsByFile}

/-- **The order of the targets and the size of a batch do not matter.** -/
theorem fixTargets_order (time : ∀ n, r.deadline.expired (r.clock n) = false) {s : Session}
    {targets targets' : List String} (perm : targets'.Perm targets) (nodup : targets.Nodup)
    (keeps : ∀ path ∈ targets, ∀ f g, s.work.project.find? path = some f →
      Edited (Repairs.Repairing (r.repairs s.surface) s.work.project.root f.specifier?
        ((r.repairs s.surface).fixes (diagnostics.of path))) f g → SameExports f g)
    (limit limit' : Option Int) :
    ∃ touched touched' t t', (r.fixTargets limit targets diagnostics).run s = (.ok touched, t) ∧
      (r.fixTargets limit' targets' diagnostics).run s = (.ok touched', t') ∧
      touched'.Perm touched ∧
      (∀ path, t'.work.project.find? path = t.work.project.find? path) ∧
      t'.work.stats = t.work.stats ∧
      (∀ path, t'.actions.filter (·.path = path) = t.actions.filter (·.path = path)) ∧
      ∀ path ∉ targets, t.work.project.find? path = s.work.project.find? path := by
  -- Both runs are compared with what each file becomes alone, which knows no order and no batches.
  have offers : ∀ path ∈ targets, Option.Rel Repairs.SameOffers (s.work.project.find? path)
      ((r.repairs s.surface).moduleAlone diagnostics s.work path) := by
    intro path there
    have alone := ((r.repairs s.surface).fixFile_fixes path (diagnostics.of path) s.work).here
    have keeps := keeps path there
    change Option.Rel _ _ ((r.repairs s.surface).moduleAlone diagnostics s.work path) at alone
    generalize s.work.project.find? path = before at alone keeps ⊢
    generalize (r.repairs s.surface).moduleAlone diagnostics s.work path = after at alone ⊢
    cases alone with
    | none => exact .none
    | some edited => exact .some (keeps _ _ rfl edited).sameOffers
  obtain ⟨t, run, fixed, actions⟩ := fixTargets_run time limit targets offers nodup
  obtain ⟨t', run', fixed', actions'⟩ := fixTargets_run time limit' targets'
    (fun path there => offers path (perm.mem_iff.mp there)) (perm.symm.nodup nodup)
  refine ⟨_, _, t, t', run, run', perm.filter _, fun path => ?_, ?_, fun path => ?_, fixed.kept⟩
  · by_cases there : path ∈ targets
    · rw [fixed.fixed path there, fixed'.fixed path (perm.mem_iff.mpr there)]
    · rw [fixed.kept path there, fixed'.kept path (fun there' => there (perm.mem_iff.mp there'))]
  · rw [fixed'.stats_eq, fixed.stats_eq, perm.length_eq, (perm.flatMap_right _).length_eq]
  · rw [actions', actions, filter_actions (perm.symm.nodup nodup), filter_actions nodup]
    simp only [perm.mem_iff]

/-! ## Modules of import lines -/

theorem sameExports_of_lines {l l' : Language} {ds ds' : List Import} {f g : SourceFile}
    (h : HoldsLines l ds f) (h' : HoldsLines l' ds' g) : SameExports f g :=
  ⟨_, _, outline_of_read h.read, outline_of_read h'.read, rfl, rfl⟩

/-- Fixes of plain names leave import lines without exports. -/
theorem lines_keep_exports {repairs : Repairs} {root : AliasRoot} {own : Option String}
    {fixes : List Fix} {l : Language} {f g : SourceFile}
    (plain : Repairs.PlainFixes repairs root own fixes)
    (lines : ∃ ds, ds ≠ [] ∧ HoldsLines l ds f)
    (edits : Edited (Repairs.Repairing repairs root own fixes) f g) : SameExports f g := by
  have readable : ∀ f, (∃ ds, ds ≠ [] ∧ HoldsLines l ds f) → ∃ o, f.read = .ok (some o) :=
    fun f ⟨ds, _, h⟩ => ⟨_, h.read⟩
  obtain ⟨ds, some, h⟩ := lines
  obtain ⟨ds', -, h'⟩ :=
    (Repairs.repairing_rereads (l := l) plain).edited readable ⟨ds, some, h⟩ edits
  exact sameExports_of_lines h h'

/-- A module that another one imports. -/
def cartModule : SourceFile where
  path := "/app/cart.ts"
  text := "import Item from \"./item\";"
  saved := ""
  root := ⟨"@/", "/app"⟩

/-- Its import. -/
def cartImports : List Import := [{ specifier := "./item", defaultName := some "Item" }]

/-- A run without limits. -/
def shopRun : Run where
  job := { directory := "/app", settings := { limits := { constrained := false } } }
  directory := "/app"
  targets := []
  disk := ⟨[]⟩
  tools := .none
  clock := fun _ => 0.0
  deadline := ⟨none, 0.0⟩

/-- The session of a project of two modules. -/
def shopSession : Session where
  work := { project := ⟨"/app", ⟨"@/", "/app"⟩, .full, [cartModule, Repairs.faultyModule]⟩ }

/-- Complaints about both modules. -/
def shopComplaints : DiagnosticsByFile :=
  [("/app/cart.ts", Repairs.complaints), ("/app/main.ts", Repairs.complaints)]

theorem shop_keeps_exports : ∀ path ∈ ["/app/cart.ts", "/app/main.ts"], ∀ f g,
    shopSession.work.project.find? path = some f →
    Edited (Repairs.Repairing (shopRun.repairs shopSession.surface) shopSession.work.project.root
      f.specifier? ((shopRun.repairs shopSession.surface).fixes (shopComplaints.of path))) f g →
    SameExports f g := by
  intro path there f g found edits
  have cart : HoldsLines .typescript cartImports cartModule :=
    ⟨by decide, rfl, by decide, .inl rfl⟩
  have main : HoldsLines .typescript Repairs.faultyImports Repairs.faultyModule :=
    ⟨by decide, rfl, by decide, .inl rfl⟩
  simp only [List.mem_cons, List.not_mem_nil, or_false] at there
  rcases there with rfl | rfl
  · obtain rfl : cartModule = f := Option.some.inj found
    exact lines_keep_exports (Repairs.plain_complaints _) ⟨_, by decide, cart⟩ edits
  · obtain rfl : Repairs.faultyModule = f := Option.some.inj found
    exact lines_keep_exports (Repairs.plain_complaints _) ⟨_, by decide, main⟩ edits

theorem shop_order : (∀ n, shopRun.deadline.expired (shopRun.clock n) = false) ∧
    ["/app/main.ts", "/app/cart.ts"].Perm ["/app/cart.ts", "/app/main.ts"] ∧
    ["/app/cart.ts", "/app/main.ts"].Nodup ∧
    (∀ path ∈ ["/app/cart.ts", "/app/main.ts"], ∀ f g,
      shopSession.work.project.find? path = some f →
      Edited (Repairs.Repairing (shopRun.repairs shopSession.surface)
        shopSession.work.project.root f.specifier?
        ((shopRun.repairs shopSession.surface).fixes (shopComplaints.of path))) f g →
      SameExports f g) ∧
    ∃ touched touched' t t',
      (shopRun.fixTargets (some 1) ["/app/cart.ts", "/app/main.ts"] shopComplaints).run
        shopSession = (.ok touched, t) ∧
      (shopRun.fixTargets none ["/app/main.ts", "/app/cart.ts"] shopComplaints).run
        shopSession = (.ok touched', t') ∧
      touched'.Perm touched ∧
      (∀ path, t'.work.project.find? path = t.work.project.find? path) ∧
      t'.work.stats = t.work.stats ∧
      (∀ path, t'.actions.filter (·.path = path) = t.actions.filter (·.path = path)) ∧
      ∀ path ∉ ["/app/cart.ts", "/app/main.ts"],
        t.work.project.find? path = shopSession.work.project.find? path := by
  have time : ∀ n, shopRun.deadline.expired (shopRun.clock n) = false := fun _ => rfl
  have perm : ["/app/main.ts", "/app/cart.ts"].Perm ["/app/cart.ts", "/app/main.ts"] := .swap ..
  have nodup : ["/app/cart.ts", "/app/main.ts"].Nodup := by decide
  exact ⟨time, perm, nodup, shop_keeps_exports,
    fixTargets_order time perm nodup shop_keeps_exports (some 1) none⟩

end Run

end ModuleRepair
