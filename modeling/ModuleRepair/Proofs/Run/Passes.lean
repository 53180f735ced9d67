import ModuleRepair.Proofs.Run.Phase

/-!
# How the passes of a run end

Each pass is put together from parts that end as they should, and so it does itself.
-/
namespace ModuleRepair.Run

theorem punctual_collectDiagnostics (r : Run) : r.Punctual r.collectDiagnostics := by
  unfold collectDiagnostics
  split
  · exact r.punctual_pure []
  · refine r.punctual_remaining.bind fun time => ?_
    dsimp only
    refine (r.punctual_modify (by intro; rfl)).bind fun _ => ?_
    exact (r.punctual_report _).bind fun _ => r.punctual_pure _

theorem punctual_loadProject (r : Run) : r.Punctual r.loadProject := by
  unfold loadProject Project.load
  dsimp only
  split
  · next failed =>
    split at failed
    · next missing =>
      obtain rfl := Except.error.inj failed
      exact fun s => .notLoaded (by simpa using missing)
    · cases failed
  · exact (r.punctual_modify (by intro; rfl)).bind fun _ => r.punctual_report _

theorem punctual_buildSurface (r : Run) : r.Punctual r.buildSurface := by
  refine r.punctual_get.bind fun s => ?_
  dsimp only
  exact (r.punctual_modify (by intro; rfl)).bind fun _ => r.punctual_report _

theorem punctual_normalizeExports (r : Run) : r.Punctual r.normalizeExports := by
  unfold normalizeExports
  split
  · exact r.punctual_pure []
  · refine (r.punctual_ofStep _).bind fun touched => r.punctual_buildSurface.bind fun _ => ?_
    exact (r.punctual_check (by decide)).bind fun _ => r.punctual_pure touched

theorem punctual_fixBatch (r : Run) (diagnostics : DiagnosticsByFile) (batch : List String) :
    r.Punctual (r.fixBatch diagnostics batch) := by
  refine (r.punctual_check (by decide)).bind fun _ => r.punctual_get.bind fun s => ?_
  refine (r.punctual_ofStep _).bind fun done => (r.punctual_ofStep _).bind fun _ => ?_
  exact r.punctual_pure done

theorem punctual_fixDiagnostics (r : Run) (diagnostics : DiagnosticsByFile) :
    r.Punctual (r.fixDiagnostics diagnostics) := by
  refine r.punctual_get.bind fun s => ?_
  refine (punctual_mapM (r.punctual_fixBatch diagnostics) _).bind fun done => ?_
  dsimp only
  exact (r.punctual_modify (by intro; rfl)).bind fun _ => r.punctual_pure _

theorem punctual_fixBuildLog (r : Run) : r.Punctual r.fixBuildLog := by
  unfold fixBuildLog
  split
  · exact r.punctual_pure []
  · exact (r.punctual_check (by decide)).bind fun _ => r.punctual_ofStep _

theorem punctual_repair (r : Run) (diagnostics : DiagnosticsByFile) :
    r.Punctual (r.repair diagnostics) := by
  refine r.punctual_buildSurface.bind fun _ => (r.punctual_check (by decide)).bind fun _ => ?_
  refine r.punctual_normalizeExports.bind fun _ => ?_
  refine (r.punctual_fixDiagnostics diagnostics).bind fun _ => ?_
  exact r.punctual_fixBuildLog.bind fun _ => r.punctual_pure _

/-- Everything between preprocessing and the last check. -/
def untilChecked (r : Run) : Phase Unit := do
  r.check "preprocessing"
  let diagnostics ← r.collectDiagnostics
  r.check "diagnostic collection"
  r.loadProject
  r.check "project loading"
  let touched ← r.repair diagnostics
  for path in touched do Phase.ofStep (organizeOne path)

theorem phases_eq (r : Run) : r.phases = r.untilChecked >>= fun _ => r.check "persisting" := by
  simp only [phases, untilChecked, bind_assoc, pure_bind]

theorem punctual_untilChecked (r : Run) : r.Punctual r.untilChecked := by
  refine (r.punctual_check (by decide)).bind fun _ => ?_
  refine r.punctual_collectDiagnostics.bind fun diagnostics => ?_
  refine (r.punctual_check (by decide)).bind fun _ => r.punctual_loadProject.bind fun _ => ?_
  refine (r.punctual_check (by decide)).bind fun _ => ?_
  refine (r.punctual_repair diagnostics).bind fun touched => ?_
  have organized := punctual_forIn (fun path => r.punctual_ofStep (organizeOne path)) touched
  exact organized.bind fun _ => r.punctual_pure ()

theorem punctual_phases (r : Run) : r.Punctual r.phases := by
  rw [phases_eq]
  exact r.punctual_untilChecked.bind fun _ => r.punctual_check (by decide)

/-- A run goes on to writing only if the time was not over at the last reading of the clock. -/
theorem phases_in_time (r : Run) {s s' : Session} (h : r.phases.run s = (.ok (), s')) :
    r.deadline.expired (r.clock (s'.readings - 1)) = false := by
  rw [phases_eq, Phase.run_bind] at h
  split at h
  · next middle _ =>
    rw [check_run] at h
    split at h
    · split at h
      · cases h
      · next early =>
        cases h
        simpa using early
    · next unlimited =>
      simp only [Deadline.expired]
      simp at unlimited
      simp [unlimited]
  · cases h

end ModuleRepair.Run
