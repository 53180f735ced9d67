import ModuleRepair.Proofs.Run.Clauses
import ModuleRepair.Proofs.Run.Phase

/-!
# What a run keeps of its project

Between loading and writing a run only rewrites modules. Whatever holds of every project that it can
load, and lasts when modules are rewritten, holds wherever the run ends (`keeps_phases`).
-/
namespace ModuleRepair

open ModuleRepair.SourceFile Relation

/-- Whether a phase keeps what holds of the project, also when it ends the run. -/
def Phase.Keeps (kept : Project → Prop) {α : Type} (phase : Phase α) : Prop :=
  ∀ s, kept s.work.project → kept (phase.run s).2.work.project

/-- Whether a property lasts when the modules of a project are rewritten. -/
structure Project.Lasting (kept : Project → Prop) : Prop where
  ordered : ∀ {p}, kept p → p.Ordered
  evolves : ∀ {p p'}, kept p → p.Evolves (Rewriting fun _ _ => True) p' → kept p'

namespace Phase.Keeps

variable {kept : Project → Prop} {α β : Type} {phase : Phase α}

theorem of_same (h : ∀ s, (phase.run s).2.work.project = s.work.project) : phase.Keeps kept := by
  intro s held
  rw [h]
  exact held

theorem pure (a : α) : (Pure.pure a : Phase α).Keeps kept :=
  of_same fun _ => rfl

theorem bind {next : α → Phase β} (h : phase.Keeps kept) (hn : ∀ a, (next a).Keeps kept) :
    (phase >>= next).Keeps kept := by
  intro s held
  have first := h s held
  rw [Phase.run_bind]
  generalize phase.run s = outcome at first ⊢
  rcases outcome with ⟨e | a, middle⟩
  · exact first
  · exact hn a middle first

theorem mapM {phase : α → Phase β} (h : ∀ a, (phase a).Keeps kept) (as : List α) :
    (as.mapM phase).Keeps kept := by
  induction as with
  | nil => simpa using pure []
  | cons a as ih =>
    rw [List.mapM_cons]
    exact (h a).bind fun b => ih.bind fun bs => pure (b :: bs)

theorem forIn {phase : α → Phase Unit} (h : ∀ a, (phase a).Keeps kept) (as : List α) :
    (ForIn.forIn as PUnit.unit fun a _ => do phase a; Pure.pure (.yield PUnit.unit)).Keeps
      kept := by
  induction as with
  | nil => exact pure _
  | cons a as ih =>
    rw [List.forIn_cons, bind_assoc]
    exact (h a).bind fun _ => by simpa using ih

theorem get : (MonadState.get : Phase Session).Keeps kept :=
  of_same fun _ => rfl

theorem report (notices : List Notice) : (Phase.report notices).Keeps kept :=
  of_same fun _ => rfl

theorem ofStep_same {step : Step α} (h : ∀ w, (step.run w).2.project = w.project) :
    (Phase.ofStep step).Keeps kept :=
  of_same fun s => h s.work

theorem ofStep (lasting : Project.Lasting kept) {writes : Import → List Import → Prop}
    {step : Step α} (h : step.Evolves (Rewriting writes)) : (Phase.ofStep step).Keeps kept := by
  intro s held
  have evolves := h s.work (lasting.ordered held)
  exact lasting.evolves held (evolves.mono fun _ _ => Rewriting.mono fun _ _ _ => trivial)

end Phase.Keeps

namespace Run

open Phase

variable {kept : Project → Prop}

theorem keeps_check (r : Run) (phase : String) : (r.check phase).Keeps kept := by
  refine Keeps.of_same fun s => ?_
  rw [check_run]
  split
  · split <;> rfl
  · rfl

theorem keeps_remaining (r : Run) : r.remaining.Keeps kept := by
  unfold remaining
  split <;> exact Keeps.of_same fun _ => rfl

theorem keeps_collectDiagnostics (r : Run) : r.collectDiagnostics.Keeps kept := by
  unfold collectDiagnostics
  split
  · exact .pure []
  · refine r.keeps_remaining.bind fun time => ?_
    refine (Keeps.of_same fun _ => rfl).bind fun _ => ?_
    exact (Keeps.report _).bind fun _ => .pure _

theorem keeps_buildSurface (r : Run) : r.buildSurface.Keeps kept := by
  refine Keeps.get.bind fun s => ?_
  exact (Keeps.of_same fun _ => rfl).bind fun _ => .report _

/-- How the project of a run is indexed: without given files as a whole. -/
def indexMode (r : Run) : IndexMode :=
  if r.job.files.isEmpty then .full else r.settings.indexMode

theorem keeps_loadProject (r : Run) (loaded : ∀ p notices, Project.load r.disk r.directory
      r.settings.sourceRoot r.settings.mark r.targets r.indexMode = .ok (p, notices) → kept p) :
    r.loadProject.Keeps kept := by
  unfold loadProject
  dsimp only
  split
  · exact Keeps.of_same fun _ => rfl
  · next project notices load =>
    refine Keeps.bind (fun s _ => ?_) fun _ => .report notices
    exact loaded project notices load

section

variable (lasting : Project.Lasting kept) (r : Run)
include lasting

theorem keeps_normalizeExports : r.normalizeExports.Keeps kept := by
  unfold normalizeExports
  split
  · exact .pure []
  · refine (Keeps.ofStep lasting (evolves_normalize _)).bind fun touched => ?_
    exact r.keeps_buildSurface.bind fun _ => (r.keeps_check _).bind fun _ => .pure touched

theorem keeps_fixBatch (diagnostics : DiagnosticsByFile) (batch : List String) :
    (r.fixBatch diagnostics batch).Keeps kept := by
  refine (r.keeps_check _).bind fun _ => Keeps.get.bind fun s => ?_
  refine (Keeps.ofStep lasting (evolves_fixFiles _ _ _)).bind fun done => ?_
  exact (Keeps.ofStep_same fun _ => rfl).bind fun _ => .pure done

theorem keeps_fixDiagnostics (diagnostics : DiagnosticsByFile) :
    (r.fixDiagnostics diagnostics).Keeps kept := by
  refine Keeps.get.bind fun s => ?_
  refine (Keeps.mapM (keeps_fixBatch lasting r diagnostics) _).bind fun done => ?_
  exact (Keeps.of_same fun _ => rfl).bind fun _ => .pure _

theorem keeps_fixBuildLog : r.fixBuildLog.Keeps kept := by
  unfold fixBuildLog
  split
  · exact .pure []
  · exact (r.keeps_check _).bind fun _ => .ofStep lasting (evolves_repair _)

theorem keeps_repair (diagnostics : DiagnosticsByFile) : (r.repair diagnostics).Keeps kept := by
  refine r.keeps_buildSurface.bind fun _ => (r.keeps_check _).bind fun _ => ?_
  refine (keeps_normalizeExports lasting r).bind fun _ => ?_
  refine (keeps_fixDiagnostics lasting r diagnostics).bind fun _ => ?_
  exact (keeps_fixBuildLog lasting r).bind fun _ => .pure _

/-- What lasts, and holds of every project that can be loaded, is never lost. -/
theorem keeps_phases (loaded : ∀ p notices, Project.load r.disk r.directory
      r.settings.sourceRoot r.settings.mark r.targets r.indexMode = .ok (p, notices) → kept p) :
    r.phases.Keeps kept := by
  refine (r.keeps_check _).bind fun _ => r.keeps_collectDiagnostics.bind fun diagnostics => ?_
  refine (r.keeps_check _).bind fun _ => (r.keeps_loadProject loaded).bind fun _ => ?_
  refine (r.keeps_check _).bind fun _ => (keeps_repair lasting r diagnostics).bind fun touched => ?_
  have organized : ∀ path, (Phase.ofStep (organizeOne path)).Keeps kept := fun path =>
    .ofStep lasting (evolves_organizeOne path)
  exact (Keeps.forIn organized touched).bind fun _ => r.keeps_check _

end

end Run

end ModuleRepair
