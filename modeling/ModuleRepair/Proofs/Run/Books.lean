import ModuleRepair.Proofs.Export.Normalize
import ModuleRepair.Proofs.Repair.Passes
import ModuleRepair.Proofs.Run.Batches
import ModuleRepair.Proofs.Run.Writes

/-!
# What a run records

The passes of a run keep their books together: no module is edited that they do not answer, and the
counters are those of the changes. So a run that ends in time writes only modules that it has
organized, and its summary is right (`Job.run_accounts`).
-/
namespace ModuleRepair

open ModuleRepair.Path ModuleRepair.Script ModuleRepair.SourceFile Change

/-- A phase goes through with a value. -/
def Phase.Returns {α : Type} (phase : Phase α) (s : Session) (a : α) (t : Session) : Prop :=
  phase.run s = (.ok a, t)

/-- Two sessions with the same modules, counters and actions. -/
structure Session.Agrees (s t : Session) : Prop where
  project_eq : t.work.project = s.work.project
  stats_eq : t.work.stats = s.work.stats
  actions_eq : t.actions = s.actions

variable {α β : Type} {s t u : Session}

theorem Session.Agrees.trans (h : s.Agrees t) (h' : t.Agrees u) : s.Agrees u where
  project_eq := h'.project_eq.trans h.project_eq
  stats_eq := h'.stats_eq.trans h.stats_eq
  actions_eq := h'.actions_eq.trans h.actions_eq

theorem Session.Agrees.booked (h : s.Agrees t) : Booked s.work [] t.work :=
  .of_same h.project_eq h.stats_eq

theorem Phase.Returns.bind {phase : Phase α} {next : α → Phase β} {b : β}
    (h : (phase >>= next).Returns s b u) :
    ∃ a t, phase.Returns s a t ∧ (next a).Returns t b u := by
  unfold Returns at h
  rw [Phase.run_bind] at h
  cases ran : phase.run s with
  | mk result t =>
    cases result with
    | error e =>
      rw [ran] at h
      cases h
    | ok a =>
      rw [ran] at h
      exact ⟨a, t, ran, h⟩

theorem Phase.Returns.pure {a b : α} (h : (Pure.pure a : Phase α).Returns s b t) :
    b = a ∧ t = s := by
  cases h
  exact ⟨rfl, rfl⟩

theorem Phase.Returns.ofStep {step : Step α} {a : α} (h : (Phase.ofStep step).Returns s a t) :
    a = (step.run s.work).1 ∧ t = { s with work := (step.run s.work).2 } := by
  cases h
  exact ⟨rfl, rfl⟩

namespace Run

variable {r : Run} {diagnostics : DiagnosticsByFile} {directory : String}

/-! ## Phases that change nothing -/

theorem check_agrees {phase : String} {a : Unit} (h : (r.check phase).Returns s a t) :
    s.Agrees t := by
  unfold Phase.Returns at h
  rw [check_run] at h
  split at h
  · split at h
    · cases h
    · cases h
      exact ⟨rfl, rfl, rfl⟩
  · cases h
    exact ⟨rfl, rfl, rfl⟩

theorem buildSurface_agrees {a : Unit} (h : r.buildSurface.Returns s a t) : s.Agrees t := by
  cases h
  exact ⟨rfl, rfl, rfl⟩

theorem remaining_agrees {time : Option Decimal.Number} (h : r.remaining.Returns s time t) :
    s.Agrees t := by
  unfold remaining at h
  split at h <;> cases h <;> exact ⟨rfl, rfl, rfl⟩

theorem collectDiagnostics_agrees (h : r.collectDiagnostics.Returns s diagnostics t) :
    s.Agrees t := by
  unfold collectDiagnostics at h
  split at h
  · cases h
    exact ⟨rfl, rfl, rfl⟩
  · obtain ⟨time, s', waited, rest⟩ := h.bind
    refine (remaining_agrees waited).trans ?_
    cases rest
    exact ⟨rfl, rfl, rfl⟩

/-! ## The fixing passes -/

theorem normalizeExports_booked {touched : List String} (h : r.normalizeExports.Returns s touched t)
    (readable : s.work.project.Readable directory) :
    ∃ entries, List.Forall₂ (fun entry c? => ∀ c ∈ c?, c.path = absolute (join directory entry))
        r.settings.allowList entries ∧
      Booked s.work (entries.flatMap Conversion.changesOf) t.work ∧
      Named touched (entries.flatMap Conversion.changesOf) ∧ t.actions = s.actions := by
  unfold normalizeExports at h
  split at h
  · next none =>
    obtain ⟨rfl, rfl⟩ := h.pure
    rw [List.isEmpty_iff.mp none]
    exact ⟨[], .nil, .refl _, .nil, rfl⟩
  · obtain ⟨answer, s₁, converted, h⟩ := h.bind
    obtain ⟨_, s₂, built, h⟩ := h.bind
    obtain ⟨_, s₃, checked, h⟩ := h.bind
    obtain ⟨rfl, rfl⟩ := h.pure
    obtain ⟨rfl, rfl⟩ := converted.ofStep
    obtain ⟨entries, fits, booked, named⟩ :=
      Normalize.paths_booked r.settings.allowList readable
    have rest := (buildSurface_agrees built).trans (check_agrees checked)
    refine ⟨entries, fits, ?_, named, rest.actions_eq⟩
    simpa using booked.append rest.booked

theorem fixBatch_booked {batch : List String} {done : List (String × List FixAction)}
    (h : (r.fixBatch diagnostics batch).Returns s done t) :
    Booked s.work ((done.flatMap (·.2)).map .fix) t.work ∧
      ∀ one ∈ done, one.2 ≠ [] ∧ ∀ action ∈ one.2, action.path = one.1 := by
  obtain ⟨_, s₁, checked, h⟩ := h.bind
  obtain ⟨s₀, s₂, here, h⟩ := h.bind
  cases here
  obtain ⟨answer, s₃, fixed, h⟩ := h.bind
  obtain ⟨_, s₄, counted, h⟩ := h.bind
  obtain ⟨rfl, rfl⟩ := h.pure
  obtain ⟨rfl, rfl⟩ := fixed.ofStep
  obtain ⟨booked, own⟩ := (r.repairs s₁.surface).fixFiles_booked batch diagnostics s₁.work
  have all := (check_agrees checked).booked.append booked
  obtain ⟨-, rfl⟩ := counted.ofStep
  exact ⟨⟨all.course, all.importsFixed, all.exportsRefactored, all.diagnosticsResolved⟩, own⟩

theorem fixBatches_booked {batches : List (List String)}
    {done : List (List (String × List FixAction))}
    (h : (batches.mapM (r.fixBatch diagnostics)).Returns s done t) :
    Booked s.work ((done.flatten.flatMap (·.2)).map .fix) t.work ∧
      ∀ one ∈ done.flatten, one.2 ≠ [] ∧ ∀ action ∈ one.2, action.path = one.1 := by
  induction batches generalizing s done with
  | nil =>
    obtain ⟨rfl, rfl⟩ := h.pure
    exact ⟨.refl _, nofun⟩
  | cons batch batches ih =>
    rw [List.mapM_cons] at h
    obtain ⟨first, s₁, here, h⟩ := h.bind
    obtain ⟨rest, s₂, later, h⟩ := h.bind
    obtain ⟨rfl, rfl⟩ := h.pure
    obtain ⟨booked, own⟩ := fixBatch_booked here
    obtain ⟨booked', own'⟩ := ih later
    rw [List.flatten_cons, List.flatMap_append, List.map_append]
    exact ⟨booked.append booked', List.forall_mem_append.mpr ⟨own, own'⟩⟩

theorem fixDiagnostics_booked {touched : List String}
    (h : (r.fixDiagnostics diagnostics).Returns s touched t) :
    Booked s.work (t.actions.map .fix) t.work ∧ Named touched (t.actions.map .fix) := by
  obtain ⟨s₀, s₁, here, h⟩ := h.bind
  cases here
  obtain ⟨done, s₂, fixed, h⟩ := h.bind
  obtain ⟨booked, own⟩ := fixBatches_booked fixed
  cases h
  exact ⟨booked, Repairs.named_of_actions own⟩

theorem fixBuildLog_booked {touched : List String} (h : r.fixBuildLog.Returns s touched t)
    (readable : s.work.project.Readable directory) :
    ∃ mended : List (String × String), Booked s.work (mended.map BuildLog.changeOf) t.work ∧
      Named touched (mended.map BuildLog.changeOf) ∧ t.actions = s.actions := by
  unfold fixBuildLog at h
  split at h
  · obtain ⟨rfl, rfl⟩ := h.pure
    exact ⟨[], .refl _, .nil, rfl⟩
  · obtain ⟨_, s₁, checked, h⟩ := h.bind
    have agrees := check_agrees checked
    rw [← agrees.project_eq] at readable
    obtain ⟨mended, booked, named⟩ := BuildLog.repair_booked r.job.buildLog readable
    obtain ⟨rfl, rfl⟩ := h.ofStep
    exact ⟨mended, agrees.booked.append booked, named, agrees.actions_eq⟩

end Run

/-- What the fixing passes of a run have done: what became of each allowed module, what was done
about diagnostics, and the imports that were rewritten because of a build log. -/
structure Books where
  entries : List (Option Conversion)
  actions : List FixAction
  /-- The module and the name of each import. -/
  mended : List (String × String)

namespace Books

def changes (b : Books) : List Change :=
  b.entries.flatMap Conversion.changesOf ++ b.actions.map .fix ++ b.mended.map BuildLog.changeOf

/-- The modules of the imports that were rewritten because of conversions. -/
def importers (b : Books) : List String :=
  b.entries.flatMap fun c? => (c?.map (·.importers)).getD []

theorem countP_isFix (b : Books) : b.changes.countP (·.isFix) = b.actions.length := by
  have entries : (b.entries.flatMap Conversion.changesOf).countP (·.isFix) = 0 := by
    induction b.entries with
    | nil => rfl
    | cons c? entries ih =>
      rw [List.flatMap_cons, List.countP_append, ih]
      cases c? <;> simp [Conversion.changesOf, Conversion.changes, Change.isFix, Function.comp_def]
  rw [changes, List.countP_append, List.countP_append, entries]
  simp [List.countP_map, Function.comp_def, Change.isFix, BuildLog.changeOf]

theorem countP_isExport (b : Books) :
    b.changes.countP (·.isExport) = b.entries.countP (·.isSome) := by
  have entries : (b.entries.flatMap Conversion.changesOf).countP (·.isExport) =
      b.entries.countP (·.isSome) := by
    induction b.entries with
    | nil => rfl
    | cons c? entries ih =>
      rw [List.flatMap_cons, List.countP_append, ih, List.countP_cons, Nat.add_comm]
      cases c? <;>
        simp [Conversion.changesOf, Conversion.changes, Change.isExport, Function.comp_def]
  rw [changes, List.countP_append, List.countP_append, entries]
  simp [List.countP_map, Function.comp_def, Change.isExport, BuildLog.changeOf]

theorem countP_not_isExport (b : Books) : b.changes.countP (!·.isExport) =
    b.actions.length + (b.importers.length + b.mended.length) := by
  have entries : (b.entries.flatMap Conversion.changesOf).countP (!·.isExport) =
      b.importers.length := by
    unfold importers
    induction b.entries with
    | nil => rfl
    | cons c? entries ih =>
      rw [List.flatMap_cons, List.countP_append, ih, List.flatMap_cons, List.length_append]
      cases c? <;>
        simp [Conversion.changesOf, Conversion.changes, Change.isExport, Function.comp_def]
  rw [changes, List.countP_append, List.countP_append, entries]
  simp [List.countP_map, Function.comp_def, Change.isExport, BuildLog.changeOf]
  omega

end Books

namespace Run

variable {r : Run} {diagnostics : DiagnosticsByFile} {directory : String}

/-- What the fixing passes have done is what they answer and count. -/
theorem repair_booked {touched : List String} (h : (r.repair diagnostics).Returns s touched t)
    (readable : s.work.project.Readable directory) :
    ∃ b : Books, b.actions = t.actions ∧
      List.Forall₂ (fun entry c? => ∀ c ∈ c?, c.path = absolute (join directory entry))
        r.settings.allowList b.entries ∧
      Booked s.work b.changes t.work ∧ Named touched b.changes ∧ touched.Nodup := by
  obtain ⟨_, s₁, built, h⟩ := h.bind
  obtain ⟨_, s₂, checked, h⟩ := h.bind
  obtain ⟨normalized, s₃, converted, h⟩ := h.bind
  obtain ⟨fixed, s₄, repaired, h⟩ := h.bind
  obtain ⟨mended, s₅, resolved, h⟩ := h.bind
  obtain ⟨rfl, rfl⟩ := h.pure
  have agrees := (buildSurface_agrees built).trans (check_agrees checked)
  rw [← agrees.project_eq] at readable
  obtain ⟨entries, fits, booked₁, named₁, -⟩ := normalizeExports_booked converted readable
  obtain ⟨booked₂, named₂⟩ := fixDiagnostics_booked repaired
  obtain ⟨imports, booked₃, named₃, actions⟩ := fixBuildLog_booked resolved
    ((readable.lead booked₁.course).lead booked₂.course)
  refine ⟨⟨entries, s₄.actions, imports⟩, actions.symm, fits, ?_, ?_, nodup_sortedPaths _⟩
  · exact agrees.booked.append ((booked₁.append booked₂).append booked₃)
  · exact ((named₁.append named₂).append named₃).sorted

end Run

/-! ## Organizing -/

namespace SourceFile

variable {f : SourceFile} {l : Language}

theorem mergeAll_eq_ok (language : Language.ofPath f.path = .ok l) (n : Nat) :
    ∃ g, mergeAll n f = .ok g := by
  induction n generalizing f with
  | zero => exact ⟨f, rfl⟩
  | succ n ih =>
    have read := outline_eq_ok language
    simp only [mergeAll, read, bind, Except.bind]
    split
    · next merged once =>
      rw [← (mergeOnce?_rewrites read once).path] at language
      exact ih language
    · exact ⟨f, rfl⟩

theorem sortFrom_eq_ok (language : Language.ofPath f.path = .ok l) (n position : Nat) :
    ∃ g, sortFrom n position f = .ok g := by
  induction n generalizing f position with
  | zero => exact ⟨f, rfl⟩
  | succ n ih =>
    simp only [sortFrom, outline_eq_ok language, bind, Except.bind]
    split
    · exact ⟨f, rfl⟩
    · exact ih (by split <;> exact language) _

/-- The imports of every module can be organized. -/
theorem organize_eq_ok (language : Language.ofPath f.path = .ok l) : ∃ g, f.organize = .ok g := by
  have read := outline_eq_ok language
  obtain ⟨merged, merging⟩ := mergeAll_eq_ok language ((outline? l f.text).getD {}).imports.length
  rw [← path_of_rewritings (mergeAll_rewrites merging)] at language
  simp only [organize, read, merging, outline_eq_ok language, bind, Except.bind]
  exact sortFrom_eq_ok language _ _

end SourceFile

/-- The modules under some paths have been organized, and nothing else. -/
structure Organized (paths : List String) (p p' : Project) : Prop where
  organized : ∀ path ∈ paths,
    Option.Rel (fun f g => f.organize = .ok g) (p.find? path) (p'.find? path)
  others : ∀ path ∉ paths, p'.find? path = p.find? path

namespace Run

variable {directory : String}

theorem organizeOne_organizes {path : String} {w : Work}
    (readable : w.project.Readable directory) (normal : absolute path = path) :
    let w' := ((organizeOne path).run w).2
    w'.project.Readable directory ∧ w'.stats = w.stats ∧ Organized [path] w.project w'.project := by
  unfold organizeOne
  rw [Step.run_get_bind, Project.get?_of_absolute normal]
  cases found : w.project.find? path with
  | none =>
    refine ⟨readable, rfl, fun path there => ?_, fun _ _ => rfl⟩
    obtain rfl := List.mem_singleton.mp there
    change Option.Rel _ _ (w.project.find? path)
    rw [found]
    exact .none
  | some f =>
    obtain rfl := Project.path_of_find? found
    obtain ⟨l, language⟩ := readable.language (List.mem_of_find?_eq_some found)
    obtain ⟨g, organized⟩ := organize_eq_ok language
    have same : g.path = f.path := path_of_rewritings (organize_rewrites organized)
    dsimp only
    rw [Attempt.orReport_run, Attempt.run_bind, Attempt.of_run, organized]
    refine ⟨readable.put found same, rfl, fun path there => ?_, fun path other => ?_⟩
    · obtain rfl := List.mem_singleton.mp there
      change Option.Rel _ _ ((w.project.put g).find? f.path)
      rw [found, ← same, Project.find?_put]
      exact .some organized
    · exact Project.find?_put_of_ne _ (same ▸ List.ne_of_not_mem_cons other)

/-- Modules are organized one after the other, each once. -/
theorem forIn_organizes {paths : List String} (nodup : paths.Nodup)
    (normal : ∀ path ∈ paths, absolute path = path) {a : PUnit}
    (h : Phase.Returns (forIn paths PUnit.unit fun path _ => do
      Phase.ofStep (organizeOne path)
      pure (.yield PUnit.unit)) s a t) (readable : s.work.project.Readable directory) :
    t.work.project.Readable directory ∧ t.work.stats = s.work.stats ∧ t.actions = s.actions ∧
      Organized paths s.work.project t.work.project := by
  induction paths generalizing s with
  | nil =>
    obtain ⟨-, rfl⟩ := h.pure
    exact ⟨readable, rfl, rfl, nofun, fun _ _ => rfl⟩
  | cons path paths ih =>
    obtain ⟨fresh, nodup⟩ := List.nodup_cons.mp nodup
    obtain ⟨itself, normal⟩ := List.forall_mem_cons.mp normal
    rw [List.forIn_cons, bind_assoc] at h
    obtain ⟨_, s₁, here, h⟩ := h.bind
    obtain ⟨-, rfl⟩ := here.ofStep
    obtain ⟨readable₁, stats₁, first⟩ := organizeOne_organizes readable itself
    obtain ⟨readable₂, stats₂, actions₂, rest⟩ := ih nodup normal h readable₁
    refine ⟨readable₂, stats₂.trans stats₁, actions₂, fun other there => ?_, fun other absent => ?_⟩
    · rcases List.mem_cons.mp there with rfl | later
      · rw [rest.others other fresh]
        exact first.organized other (List.mem_singleton.mpr rfl)
      · have apart : other ∉ [path] := fun same => fresh (List.mem_singleton.mp same ▸ later)
        rw [← first.others other apart]
        exact rest.organized other later
    · have apart : other ∉ [path] := fun same =>
        List.ne_of_not_mem_cons absent (List.mem_singleton.mp same)
      rw [rest.others other (List.not_mem_of_not_mem_cons absent), first.others other apart]

end Run

/-! ## Loading and writing -/

namespace Project

variable {d : Disk} {directory sourceRoot mark : String} {files : List String} {mode : IndexMode}
  {p : Project} {notices : List Notice}

theorem readable_load (h : load d directory sourceRoot mark files mode = .ok (p, notices)) :
    p.Readable (absolute directory) where
  ordered := ordered_load h
  directory_eq := load_induction (motive := (·.directory = absolute directory)) rfl
    (fun _ _ _ same => same) h
  normal f hf := by
    obtain ⟨⟨-, ⟨file, -, same⟩ | ⟨-, there⟩⟩, -⟩ := (readFrom_load h).read f hf
    · rw [same, absolute_absolute]
    · exact (isSupported_of_mem_collectFiles there).2
  supported f hf := ((readFrom_load h).read f hf).1.1

/-- A module that is loaded is not modified. -/
theorem isModified_load (h : load d directory sourceRoot mark files mode = .ok (p, notices)) :
    ∀ f ∈ p.files, f.isModified = false := by
  refine load_induction (motive := fun p => ∀ f ∈ p.files, f.isModified = false) nofun ?_ h
  intro p path text unmodified f hf
  rcases mem_insert hf with rfl | hf
  · simp [SourceFile.isModified, ofText]
  · exact unmodified f hf

/-- The modules that are written back are modified ones. -/
theorem mem_written_save {path : String} (h : path ∈ (p.save d).written) :
    ∃ f ∈ p.modified, f.path = path := by
  have all : ∀ path ∈ (p.save d).written, ∃ f ∈ p.modified, f.path = path := by
    refine List.foldlRecOn (motive := fun s : Saved => ∀ path ∈ s.written,
      ∃ f ∈ p.modified, f.path = path) p.modified _ nofun ?_
    intro s written f hf path there
    unfold saveOne at there
    split at there
    · rcases List.mem_append.mp there with there | there
      · exact written path there
      · exact ⟨f, hf, (List.mem_singleton.mp there).symm⟩
    · exact written path there
  exact all path h

/-- A module that is as it was loaded is not written back. -/
theorem mem_of_written {tidied : Project} {touched : List String} {path : String}
    (loaded : load d directory sourceRoot mark files mode = .ok (p, notices))
    (ordered : tidied.Ordered) (others : ∀ path ∉ touched, tidied.find? path = p.find? path)
    (h : path ∈ (tidied.save d).written) : path ∈ touched := by
  obtain ⟨f, modified, rfl⟩ := mem_written_save h
  obtain ⟨hf, changed⟩ := List.mem_filter.mp modified
  by_contra absent
  have found : p.find? f.path = some f := by
    rw [← others f.path absent]
    exact ordered.find?_of_mem hf
  have unmodified := isModified_load loaded f (List.mem_of_find?_eq_some found)
  rw [unmodified] at changed
  cases changed

end Project

/-! ## The run -/

namespace Run

variable {r : Run}

theorem loadProject_loads {a : Unit} (h : r.loadProject.Returns s a t) :
    ∃ p notices, Project.load r.disk r.directory r.settings.sourceRoot r.settings.mark r.targets
        r.indexMode = .ok (p, notices) ∧
      t.work.project = p ∧ t.work.stats = s.work.stats ∧ t.actions = s.actions := by
  unfold loadProject at h
  dsimp only at h
  split at h
  · cases h
  · next p notices loaded =>
    cases h
    exact ⟨p, notices, loaded, rfl, rfl, rfl⟩

/-- What a run has done to the project that it has loaded, and how it accounts for it: `repaired` is
what the fixing passes have left, `touched` is what they have answered, and `tidied` is what is
written. -/
structure Accounts (r : Run) (loaded repaired tidied : Project) (touched : List String) (b : Books)
    (ended : Ended) : Prop where
  /-- The changes that are in the books are all that was done. -/
  course : Lead loaded b.changes repaired
  /-- The modules that are answered are those that were changed. -/
  named : Named touched b.changes
  untouched : ∀ path ∉ touched, repaired.find? path = loaded.find? path
  organized : ∀ path ∈ touched, ∃ f g,
    repaired.find? path = some f ∧ f.organize = .ok g ∧ tidied.find? path = some g
  others : ∀ path ∉ touched, tidied.find? path = loaded.find? path
  disk_eq : ended.disk = (tidied.save r.disk).disk
  written : ∀ path ∈ (tidied.save r.disk).written, path ∈ touched
  /-- Every conversion is that of an allowed module. -/
  entries : List.Forall₂ (fun entry c? => ∀ c ∈ c?, c.path = loaded.resolvePath entry)
    r.settings.allowList b.entries
  actions : ended.session.actions = b.actions
  diagnosticsResolved : ended.session.work.stats.diagnosticsResolved = b.actions.length
  importsFixed : ended.session.work.stats.importsFixed =
    b.actions.length + (b.importers.length + b.mended.length)
  exportsRefactored : ended.session.work.stats.exportsRefactored = b.entries.countP (·.isSome)

/-- The course of a run that comes to writing: it loads the project, repairs it and organizes what
the repair has answered. -/
theorem phases_returns {a : Unit} (h : r.phases.Returns s a t) :
    ∃ loaded notices diagnostics s' touched s'' u v,
      Project.load r.disk r.directory r.settings.sourceRoot r.settings.mark r.targets
        r.indexMode = .ok (loaded, notices) ∧ s'.work.project = loaded ∧
      s'.work.stats = s.work.stats ∧ (r.repair diagnostics).Returns s' touched s'' ∧
      Phase.Returns (forIn touched PUnit.unit fun path _ => do
        Phase.ofStep (organizeOne path)
        pure (.yield PUnit.unit)) s'' u v ∧ v.Agrees t := by
  rw [phases_eq] at h
  obtain ⟨_, v, h, last⟩ := h.bind
  obtain ⟨_, s₁, checked₁, h⟩ := h.bind
  obtain ⟨diagnostics, s₂, collected, h⟩ := h.bind
  obtain ⟨_, s₃, checked₂, h⟩ := h.bind
  obtain ⟨_, s₄, loading, h⟩ := h.bind
  obtain ⟨_, s₅, checked₃, h⟩ := h.bind
  obtain ⟨touched, s₆, repaired, h⟩ := h.bind
  obtain ⟨u, s₇, organizing, h⟩ := h.bind
  obtain ⟨-, rfl⟩ := h.pure
  obtain ⟨loaded, notices, load, project, stats, -⟩ := loadProject_loads loading
  have before := ((check_agrees checked₁).trans (collectDiagnostics_agrees collected)).trans
    (check_agrees checked₂)
  have start := check_agrees checked₃
  refine ⟨loaded, notices, diagnostics, s₅, touched, s₆, u, v, load, ?_, ?_, repaired, organizing,
    check_agrees last⟩
  · rw [start.project_eq, project]
  · rw [start.stats_eq, stats, before.stats_eq]

/-- A run that comes to writing accounts for all that it writes. -/
theorem finish_accounts {a : Unit} (h : r.phases.Returns s a t) (fresh : s.work.stats = {}) :
    ∃ loaded notices diagnostics s' touched t' b,
      Project.load r.disk r.directory r.settings.sourceRoot r.settings.mark r.targets
        r.indexMode = .ok (loaded, notices) ∧ s'.work.project = loaded ∧
      (r.repair diagnostics).Returns s' touched t' ∧
      r.Accounts loaded t'.work.project t.work.project touched b (Job.finish r.disk t) := by
  obtain ⟨loaded, notices, diagnostics, s', touched, t', _, v, load, same, stats, repaired,
    organizing, last⟩ := phases_returns h
  have readable : s'.work.project.Readable (absolute r.directory) :=
    same ▸ Project.readable_load load
  obtain ⟨b, recorded, entries, booked, named, nodup⟩ := repair_booked repaired readable
  have course : Lead loaded b.changes t'.work.project := same ▸ booked.course
  have there (path : String) (hp : path ∈ touched) : ∃ f, t'.work.project.find? path = some f := by
    obtain ⟨c, hc, rfl⟩ := (named path).mp hp
    rw [← Option.isSome_iff_exists, course.isSome_find?]
    exact course.found hc
  have readable' := readable.lead booked.course
  have normal (path : String) (hp : path ∈ touched) : absolute path = path := by
    obtain ⟨f, found⟩ := there path hp
    have itself := readable'.normal f (List.mem_of_find?_eq_some found)
    rwa [Project.path_of_find? found] at itself
  obtain ⟨readable'', stats', actions', organized⟩ :=
    forIn_organizes nodup normal organizing readable'
  have untouched (path : String) (hp : path ∉ touched) :
      t'.work.project.find? path = loaded.find? path :=
    course.others fun c hc here => hp ((named path).mpr ⟨c, hc, here⟩)
  rw [← last.project_eq] at readable'' organized
  have others (path : String) (hp : path ∉ touched) :
      t.work.project.find? path = loaded.find? path := by
    rw [organized.others path hp, untouched path hp]
  have ended : (Job.finish r.disk t).session.work.stats = t'.work.stats :=
    last.stats_eq.trans stats'
  refine ⟨loaded, notices, diagnostics, s', touched, t', b, load, same, repaired, ?_⟩
  refine ⟨course, named, untouched, fun path hp => ?_, others, rfl,
    fun path => Project.mem_of_written load readable''.ordered others, ?_,
    last.actions_eq.trans (actions'.trans recorded.symm), ?_, ?_, ?_⟩
  · obtain ⟨f, found⟩ := there path hp
    have rel := organized.organized path hp
    rw [found] at rel ⊢
    generalize t.work.project.find? path = now at rel ⊢
    cases rel with
    | some organized => exact ⟨f, _, rfl, organized, rfl⟩
  · have home : loaded.directory = absolute r.directory := same ▸ readable.directory_eq
    simpa only [Project.resolvePath, home] using entries
  · rw [ended, booked.diagnosticsResolved, stats, fresh, b.countP_isFix, Nat.zero_add]
  · rw [ended, booked.importsFixed, stats, fresh, b.countP_not_isExport, Nat.zero_add]
  · rw [ended, booked.exportsRefactored, stats, fresh, b.countP_isExport, Nat.zero_add]

end Run

namespace Job

/-- **No edited module escapes the books of a run.** For every job whose time is never over: behind
the fixing passes every module that they do not answer is as it was loaded, so that all modules that
are written were touched and organized; and the summary counts the recorded actions, the imports
that were rewritten, and the allowed modules that were converted. -/
theorem run_accounts (job : Job) (tools : Tools) (clock : Nat → Float) (d : Disk)
    (completes : (job.run tools clock d).error = none) :
    let r := job.givenFiles.started tools clock d
    ∃ loaded notices diagnostics s touched t tidied b,
      Project.load r.disk r.directory r.settings.sourceRoot r.settings.mark r.targets
        r.indexMode = .ok (loaded, notices) ∧ s.work.project = loaded ∧
      (r.repair diagnostics).Returns s touched t ∧
      r.Accounts loaded t.work.project tidied touched b (job.run tools clock d) := by
  intro r
  have home : ¬(job.givenFiles.directory = "" ∨ !d.isDirectory job.givenFiles.directory) := by
    intro missing
    simp only [run, if_pos missing] at completes
    cases completes
  simp only [run, if_neg home] at completes ⊢
  let s := job.givenFiles.session r.directory
    ((Target.paths d r.directory job.givenFiles.files).2 ++
      (job.givenFiles.preprocess d r.targets).notices)
  have result : job.givenFiles.perform tools clock d = settle r.disk (r.phases.run s) := rfl
  rw [result] at completes ⊢
  cases ran : r.phases.run s with
  | mk outcome last =>
    rw [ran] at completes
    cases outcome with
    | error e => cases completes
    | ok done =>
      obtain ⟨loaded, notices, diagnostics, s', touched, t, b, load, same, repaired, accounts⟩ :=
        Run.finish_accounts (s := s) ran rfl
      exact ⟨loaded, notices, diagnostics, s', touched, t, last.work.project, b, load, same,
        repaired, accounts⟩

/-- A run comes to its end when there is a project and the time is never over. -/
theorem run_completes {job : Job} {clock : Nat → Float} {d : Disk}
    (found : ¬job.givenFiles.Homeless d) (tools : Tools)
    (inTime : ∀ n, (job.givenFiles.deadline clock).expired (clock n) = false) :
    (job.run tools clock d).error = none := by
  have ends := job.run_ends tools clock d
  generalize job.run tools clock d = ended at ends ⊢
  cases ends with
  | done => rfl
  | timedOut found known later last expired =>
    rw [inTime] at expired
    cases expired
  | homeless missing => exact absurd missing found

/-- A module with a default export, and another one that imports it. -/
def stall : Disk where
  nodes := [("/app", .directory), ("/app/price.ts", .file Normalize.plainPrices.text.toUTF8),
    ("/app/page.ts", .file "import price from \"./price\";\n\nprice();\n".toUTF8)]

/-- The conversion of the first module, with no limit of time. -/
def stallJob : Job where
  directory := "/app"
  settings := { timeoutSeconds := 0.0, allowList := ["price.ts"] }

theorem stall_accounts : (stallJob.run .none (fun _ => 0.0) stall).error = none ∧
    let r := stallJob.givenFiles.started .none (fun _ => 0.0) stall
    ∃ loaded notices diagnostics s touched t tidied b,
      Project.load r.disk r.directory r.settings.sourceRoot r.settings.mark r.targets
        r.indexMode = .ok (loaded, notices) ∧ s.work.project = loaded ∧
      (r.repair diagnostics).Returns s touched t ∧
      r.Accounts loaded t.work.project tidied touched b
        (stallJob.run .none (fun _ => 0.0) stall) := by
  have found : ¬stallJob.givenFiles.Homeless stall := by
    unfold Homeless
    decide +kernel
  have completes : (stallJob.run .none (fun _ => 0.0) stall).error = none :=
    run_completes found .none fun _ => by decide +kernel
  exact ⟨completes, stallJob.run_accounts .none _ stall completes⟩

end Job

end ModuleRepair
