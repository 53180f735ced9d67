import ModuleRepair.BuildLog.Repair
import ModuleRepair.Diagnostic.Repair
import ModuleRepair.Export.Normalize
import ModuleRepair.Proofs.Repair.Work
import ModuleRepair.Run.Passes

/-!
# Nothing depends on what was reported

The steps of the passes look at the modules of a project only. What was reported before, and how
many files were counted as processed, they neither look at nor change (`Step.Oblivious`).
-/
namespace ModuleRepair

open ModuleRepair.Script

/-- The work with earlier notices in front of its own, and some number of processed files. -/
def Work.beside (told : List Notice) (processed : Nat) (w : Work) : Work :=
  { w with
    notices := told ++ w.notices
    stats := { w.stats with filesProcessed := processed } }

variable {α β : Type}

/-- A step does the same whatever was reported before and however many files were processed, and it
leaves both as they were. -/
def Step.Oblivious (step : Step α) : Prop :=
  ∀ told processed w, step.run (w.beside told processed) =
    ((step.run w).1, (step.run w).2.beside told processed)

/-- The same for an attempt. -/
def Attempt.Oblivious (attempt : Attempt α) : Prop :=
  ∀ told processed w, attempt.run (w.beside told processed) =
    ((attempt.run w).1, (attempt.run w).2.beside told processed)

/-! ## How steps are put together -/

namespace Step.Oblivious

variable {step : Step α}

/-- No file is counted as processed. -/
theorem filesProcessed_eq (h : step.Oblivious) (w : Work) :
    (step.run w).2.stats.filesProcessed = w.stats.filesProcessed := by
  have same : w.beside [] w.stats.filesProcessed = w := rfl
  have own := h [] w.stats.filesProcessed w
  rw [same] at own
  rw [own]
  rfl

theorem pure (a : α) : (Pure.pure a : Step α).Oblivious :=
  fun _ _ _ => rfl

theorem bind {next : α → Step β} (h : step.Oblivious) (hn : ∀ a, (next a).Oblivious) :
    (step >>= next).Oblivious := by
  intro told processed w
  rw [StateT.run_bind, StateT.run_bind, h]
  exact hn _ told processed _

/-- A step that first looks at the work, but not at these parts of it. -/
theorem get {next : Work → Step α}
    (same : ∀ told processed w, next (w.beside told processed) = next w)
    (h : ∀ w, (next w).Oblivious) : (MonadState.get >>= next).Oblivious := by
  intro told processed w
  rw [Step.run_get_bind, Step.run_get_bind, same]
  exact h w told processed w

theorem modify {change : Work → Work}
    (h : ∀ told processed w, change (w.beside told processed) =
      (change w).beside told processed) : (modify change : Step Unit).Oblivious :=
  fun told processed w => congrArg (Prod.mk ()) (h told processed w)

theorem report (notice : Notice) : (Work.report notice).Oblivious :=
  modify fun told processed w => by
    change Work.mk _ _ (told ++ w.notices ++ [notice]) = .mk _ _ (told ++ (w.notices ++ [notice]))
    rw [List.append_assoc]
    rfl

theorem putFile (f : SourceFile) : (Work.putFile f).Oblivious :=
  modify fun _ _ _ => rfl

/-- Counting something else. -/
theorem count {change : Stats → Stats} (other : ∀ processed stats,
    change { stats with filesProcessed := processed } =
      { change stats with filesProcessed := processed }) : (Work.count change).Oblivious :=
  modify fun told processed w => congrArg
    (fun stats => ({ w with notices := told ++ w.notices, stats } : Work)) (other processed w.stats)

theorem mapM {act : α → Step β} (h : ∀ a, (act a).Oblivious) (as : List α) :
    (as.mapM act).Oblivious := by
  induction as with
  | nil => simpa using pure []
  | cons a as ih =>
    rw [List.mapM_cons]
    exact (h a).bind fun b => ih.bind fun bs => pure (b :: bs)

theorem filterMapM {act : α → Step (Option β)} (h : ∀ a, (act a).Oblivious) (as : List α) :
    (as.filterMapM act).Oblivious := by
  induction as with
  | nil => simpa using pure []
  | cons a as ih =>
    rw [List.filterMapM_cons]
    refine (h a).bind fun b? => ?_
    cases b? with
    | none => exact ih
    | some b => exact ih.bind fun bs => pure (b :: bs)

end Step.Oblivious

namespace Attempt.Oblivious

variable {attempt : Attempt α}

theorem pure (a : α) : (Pure.pure a : Attempt α).Oblivious :=
  fun _ _ _ => rfl

theorem of (result : Except LanguageError α) : (Attempt.of result).Oblivious :=
  fun _ _ _ => rfl

theorem bind {next : α → Attempt β} (h : attempt.Oblivious) (hn : ∀ a, (next a).Oblivious) :
    (attempt >>= next).Oblivious := by
  intro told processed w
  rw [Attempt.run_bind, Attempt.run_bind, h]
  rcases attempt.run w with ⟨e | a, w'⟩
  · rfl
  · exact hn a told processed w'

theorem step {step : Step α} (h : step.Oblivious) : (liftM step : Attempt α).Oblivious := by
  intro told processed w
  exact congrArg (fun out : α × Work => (Except.ok out.1, out.2)) (h told processed w)

theorem get {next : Work → Attempt α}
    (same : ∀ told processed w, next (w.beside told processed) = next w)
    (h : ∀ w, (next w).Oblivious) : (MonadState.get >>= next).Oblivious := by
  intro told processed w
  rw [Attempt.run_get_bind, Attempt.run_get_bind, same]
  exact h w told processed w

theorem filterMapM {act : α → Attempt (Option β)} (h : ∀ a, (act a).Oblivious) (as : List α) :
    (as.filterMapM act).Oblivious := by
  induction as with
  | nil => simpa using pure []
  | cons a as ih =>
    rw [List.filterMapM_cons]
    refine (h a).bind fun b? => ?_
    cases b? with
    | none => exact ih
    | some b => exact ih.bind fun bs => pure (b :: bs)

/-- A failure is reported behind what was reported before. -/
theorem orReport (h : attempt.Oblivious) (otherwise : α) (notice : LanguageError → Notice) :
    (attempt.orReport otherwise notice).Oblivious := by
  intro told processed w
  rw [Attempt.orReport_run, Attempt.orReport_run, h]
  rcases attempt.run w with ⟨e | a, w'⟩
  · simp [Work.beside]
  · rfl

end Attempt.Oblivious

/-! ## The steps of the passes -/

namespace Normalize

theorem oblivious_importer (target name : String) (f : SourceFile) :
    (importer target name f).Oblivious := by
  refine .get (fun _ _ _ => rfl) fun w => (Attempt.Oblivious.of _).bind fun (g, count) => ?_
  dsimp only
  split
  · exact .pure none
  · exact (Attempt.Oblivious.step (.putFile g)).bind fun _ =>
      (Attempt.Oblivious.step (.count fun _ _ => rfl)).bind fun _ => .pure _

theorem oblivious_module (f : SourceFile) : (module f).Oblivious := by
  refine (Attempt.Oblivious.of _).bind fun o => ?_
  split
  · exact .pure []
  · next name _ =>
    refine .get (fun _ _ _ => rfl) fun w => ?_
    refine (Attempt.Oblivious.filterMapM (oblivious_importer f.path name) _).bind fun touched => ?_
    exact (Attempt.Oblivious.of _).bind fun g => (Attempt.Oblivious.step (.putFile g)).bind fun _ =>
      (Attempt.Oblivious.step (.count fun _ _ => rfl)).bind fun _ => .pure _

theorem oblivious_path (entry : String) : (path entry).Oblivious := by
  refine .get (fun _ _ _ => rfl) fun w => ?_
  cases w.project.get? entry with
  | none => exact (Step.Oblivious.report _).bind fun _ => .pure []
  | some f => exact (oblivious_module f).orReport _ _

theorem oblivious_paths (allowed : List String) : (paths allowed).Oblivious :=
  (Step.Oblivious.mapM oblivious_path allowed).bind fun _ => .pure _

end Normalize

namespace BuildLog

theorem oblivious_consumer (m : Mismatch) (defining : String) (f : SourceFile) :
    (consumer m defining f).Oblivious := by
  refine .get (fun _ _ _ => rfl) fun w => (Attempt.Oblivious.of _).bind fun (g, count) => ?_
  dsimp only
  split
  · exact .pure none
  · exact (Attempt.Oblivious.step (.putFile g)).bind fun _ =>
      (Attempt.Oblivious.step (.count fun _ _ => rfl)).bind fun _ => .pure _

theorem oblivious_repairOne (m : Mismatch) : (repairOne m).Oblivious := by
  refine .get (fun _ _ _ => rfl) fun w => ?_
  cases w.project.locate? m.specifier with
  | none => exact .pure []
  | some defining =>
    refine (Attempt.Oblivious.of _).bind fun o => ?_
    dsimp only
    split
    · exact .pure []
    · exact .get (fun _ _ _ => rfl) fun w => .filterMapM (oblivious_consumer m defining.path) _

theorem oblivious_repair (log : String) : (repair log).Oblivious :=
  (Step.Oblivious.mapM (fun m => (oblivious_repairOne m).orReport _ _) (mismatches log)).bind
    fun _ => .pure _

end BuildLog

namespace Repairs

theorem oblivious_fixOne (r : Repairs) (path : String) (d : Diagnostic) :
    (r.fixOne path d).Oblivious := by
  refine .get (fun _ _ _ => rfl) fun w => ?_
  dsimp only
  split
  · refine (Attempt.Oblivious.of _).bind fun repaired => ?_
    cases repaired with
    | none => exact .pure none
    | some repaired =>
      exact (Attempt.Oblivious.step (.putFile repaired.1)).bind fun _ =>
        (Attempt.Oblivious.step (.count fun _ _ => rfl)).bind fun _ => .pure _
  · exact .pure none

theorem oblivious_fixFile (r : Repairs) (path : String) (diagnostics : List Diagnostic) :
    (r.fixFile path diagnostics).Oblivious :=
  .filterMapM (fun d => (r.oblivious_fixOne path d).orReport _ _) _

theorem oblivious_fixFiles (r : Repairs) (paths : List String) (diagnostics : DiagnosticsByFile) :
    (r.fixFiles paths diagnostics).Oblivious :=
  (Step.Oblivious.mapM (fun path => (r.oblivious_fixFile path _).bind fun _ => .pure _) paths).bind
    fun _ => .pure _

end Repairs

theorem Run.oblivious_organizeOne (path : String) : (organizeOne path).Oblivious := by
  refine .get (fun _ _ _ => rfl) fun w => ?_
  cases w.project.get? path with
  | none => exact .pure ()
  | some f =>
    exact ((Attempt.Oblivious.of _).bind fun g => .step (.putFile g)).orReport _ _

end ModuleRepair
