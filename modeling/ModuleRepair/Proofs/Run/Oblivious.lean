import ModuleRepair.Proofs.Repair.Oblivious
import ModuleRepair.Proofs.Run.Books

/-!
# Runs that differ in their reports only

No phase looks at what was reported before, so that a run goes on alike behind different reports
(`Run.oblivious_phases`).
-/
namespace ModuleRepair

open ModuleRepair.Script

variable {α β : Type}

/-- The session with earlier notices in front of its own. -/
def Session.beside (told : List Notice) (s : Session) : Session :=
  { s with work := { s.work with notices := told ++ s.work.notices } }

/-- A phase does the same whatever was reported before. -/
def Phase.Oblivious (phase : Phase α) : Prop :=
  ∀ told s, phase.run (s.beside told) = ((phase.run s).1, (phase.run s).2.beside told)

namespace Phase.Oblivious

variable {phase : Phase α}

theorem pure (a : α) : (Pure.pure a : Phase α).Oblivious :=
  fun _ _ => rfl

theorem throw (e : RunError) : (MonadExcept.throw e : Phase α).Oblivious :=
  fun _ _ => rfl

theorem bind {next : α → Phase β} (h : phase.Oblivious) (hn : ∀ a, (next a).Oblivious) :
    (phase >>= next).Oblivious := by
  intro told s
  rw [Phase.run_bind, Phase.run_bind, h]
  rcases phase.run s with ⟨e | a, t⟩
  · rfl
  · exact hn a told t

/-- A phase that first looks at the session, but not at what was reported. -/
theorem get {next : Session → Phase α} (same : ∀ told s, next (s.beside told) = next s)
    (h : ∀ s, (next s).Oblivious) : (MonadState.get >>= next).Oblivious := by
  intro told s
  change (next (s.beside told)).run _ = ((next s).run s |>.1, ((next s).run s).2.beside told)
  rw [same]
  exact h s told s

theorem modify {change : Session → Session}
    (h : ∀ told s, change (s.beside told) = (change s).beside told) :
    (modify change : Phase Unit).Oblivious :=
  fun told s => congrArg (Prod.mk (Except.ok ())) (h told s)

theorem report (notices : List Notice) : (Phase.report notices).Oblivious := by
  refine modify fun told s => ?_
  simp only [Session.beside, List.append_assoc]

theorem ofStep {step : Step α} (h : step.Oblivious) : (Phase.ofStep step).Oblivious := by
  intro told s
  have stepped := h told s.work.stats.filesProcessed s.work
  have kept := h.filesProcessed_eq s.work
  have result : step.run (s.beside told).work = ((step.run s.work).1,
      { (step.run s.work).2 with notices := told ++ (step.run s.work).2.notices }) := by
    refine stepped.trans ?_
    rw [← kept]
    rfl
  change (Except.ok (step.run (s.beside told).work).1,
    { s.beside told with work := (step.run (s.beside told).work).2 }) = _
  rw [result]
  rfl

theorem mapM {act : α → Phase β} (h : ∀ a, (act a).Oblivious) (as : List α) :
    (as.mapM act).Oblivious := by
  induction as with
  | nil => simpa using pure []
  | cons a as ih =>
    rw [List.mapM_cons]
    exact (h a).bind fun b => ih.bind fun bs => pure (b :: bs)

theorem forIn {act : α → Phase Unit} (h : ∀ a, (act a).Oblivious) (as : List α) :
    (ForIn.forIn as PUnit.unit fun a _ => do
      act a; Pure.pure (.yield PUnit.unit) : Phase PUnit).Oblivious := by
  induction as with
  | nil => exact pure _
  | cons a as ih =>
    rw [List.forIn_cons, bind_assoc]
    exact (h a).bind fun _ => by simpa using ih

end Phase.Oblivious

namespace Run

open Phase

variable (r : Run) (diagnostics : DiagnosticsByFile)

theorem oblivious_now : r.now.Oblivious :=
  fun _ _ => rfl

theorem oblivious_check (phase : String) : (r.check phase).Oblivious := by
  unfold check
  split
  · refine r.oblivious_now.bind fun now => ?_
    split
    · exact .throw _
    · exact .pure ()
  · exact .pure ()

theorem oblivious_remaining : r.remaining.Oblivious := by
  unfold remaining
  split
  · exact r.oblivious_now.bind fun _ => .pure _
  · exact .pure none

theorem oblivious_collectDiagnostics : r.collectDiagnostics.Oblivious := by
  unfold collectDiagnostics
  split
  · exact .pure []
  · refine r.oblivious_remaining.bind fun time => ?_
    exact (Oblivious.modify fun _ _ => rfl).bind fun _ => (Oblivious.report _).bind fun _ => .pure _

theorem oblivious_loadProject : r.loadProject.Oblivious := by
  unfold loadProject
  dsimp only
  split
  · exact .throw _
  · exact (Oblivious.modify fun _ _ => rfl).bind fun _ => .report _

theorem oblivious_buildSurface : r.buildSurface.Oblivious :=
  .get (fun _ _ => rfl) fun _ => (Oblivious.modify fun _ _ => rfl).bind fun _ => .report _

theorem oblivious_normalizeExports : r.normalizeExports.Oblivious := by
  unfold normalizeExports
  split
  · exact .pure []
  · refine (Oblivious.ofStep (Normalize.oblivious_paths _)).bind fun touched => ?_
    exact r.oblivious_buildSurface.bind fun _ => (r.oblivious_check _).bind fun _ => .pure touched

theorem oblivious_fixBatch (batch : List String) : (r.fixBatch diagnostics batch).Oblivious := by
  refine (r.oblivious_check _).bind fun _ => .get (fun _ _ => rfl) fun s => ?_
  refine (Oblivious.ofStep (Repairs.oblivious_fixFiles _ batch diagnostics)).bind fun done => ?_
  have counts : (Phase.ofStep (Work.count fun s =>
      { s with filesProcessed := s.filesProcessed + batch.length })).Oblivious := fun _ _ => rfl
  exact counts.bind fun _ => .pure done

theorem oblivious_fixTargets (limit : Option Int) (targets : List String) :
    (r.fixTargets limit targets diagnostics).Oblivious :=
  (Oblivious.mapM (r.oblivious_fixBatch diagnostics) _).bind fun _ =>
    (Oblivious.modify fun _ _ => rfl).bind fun _ => .pure _

theorem oblivious_fixDiagnostics : (r.fixDiagnostics diagnostics).Oblivious := by
  rw [fixDiagnostics_eq]
  exact .get (fun _ _ => rfl) fun s => r.oblivious_fixTargets diagnostics _ _

theorem oblivious_fixBuildLog : r.fixBuildLog.Oblivious := by
  unfold fixBuildLog
  split
  · exact .pure []
  · exact (r.oblivious_check _).bind fun _ => .ofStep (BuildLog.oblivious_repair _)

theorem oblivious_repair : (r.repair diagnostics).Oblivious :=
  r.oblivious_buildSurface.bind fun _ => (r.oblivious_check _).bind fun _ =>
    r.oblivious_normalizeExports.bind fun _ => (r.oblivious_fixDiagnostics diagnostics).bind
      fun _ => r.oblivious_fixBuildLog.bind fun _ => .pure _

/-- **What was reported before a run decides nothing in it.** -/
theorem oblivious_phases : r.phases.Oblivious :=
  (r.oblivious_check _).bind fun _ => r.oblivious_collectDiagnostics.bind fun diagnostics =>
    (r.oblivious_check _).bind fun _ => r.oblivious_loadProject.bind fun _ =>
      (r.oblivious_check _).bind fun _ => (r.oblivious_repair diagnostics).bind fun touched =>
        (Oblivious.forIn (fun path => .ofStep (oblivious_organizeOne path)) touched).bind
          fun _ => r.oblivious_check _

end Run

end ModuleRepair
