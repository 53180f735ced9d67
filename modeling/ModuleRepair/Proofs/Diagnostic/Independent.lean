import ModuleRepair.Proofs.Diagnostic.Edited
import ModuleRepair.Proofs.Project.Evolve

/-!
# Files are fixed independently of each other

Of other modules a fix sees nothing but what they offer. As long as edits of imports leave that as
it is, a file is fixed in the same way whatever files were fixed before it: among several files each
one ends up as if it had been fixed alone (`FixedEach.mapM`).
-/
namespace ModuleRepair

open ModuleRepair.Script ModuleRepair.SourceFile Relation

/-- The counts after so many files and fixes more. -/
def Stats.plus (s : Stats) (files fixes : Nat) : Stats :=
  { s with
    filesProcessed := s.filesProcessed + files
    importsFixed := s.importsFixed + fixes
    diagnosticsResolved := s.diagnosticsResolved + fixes }

namespace Repairs

/-- Two modules that look the same to the fixes of other modules. -/
def SameOffers (f g : SourceFile) : Prop :=
  ∀ name, offersByNameOnly g name = offersByNameOnly f name

/-- Two projects that look the same to the fixes of the module under a path. -/
structure LooksSame (path : String) (p q : Project) : Prop where
  directory_eq : q.directory = p.directory
  root_eq : q.root = p.root
  here : q.find? path = p.find? path
  others : ∀ other, Option.Rel SameOffers (p.find? other) (q.find? other)

theorem sameOffers_rel_refl (f : Option SourceFile) : Option.Rel SameOffers f f := by
  cases f with
  | none => exact .none
  | some f => exact .some fun _ => rfl

variable {r : Repairs} {path : String} {p q : Project} {f : SourceFile}

namespace LooksSame

theorem resolve? (h : LooksSame path p q) (importer specifier : String) :
    Option.Rel SameOffers (p.resolve? importer specifier) (q.resolve? importer specifier) := by
  have base : q.basePath? importer specifier = p.basePath? importer specifier := by
    simp only [Project.basePath?, Project.resolvePath, h.directory_eq, h.root_eq]
  simp only [Project.resolve?, base]
  split
  · next base _ =>
    induction Project.candidates base with
    | nil => exact .none
    | cons candidate rest ih =>
      simp only [List.findSome?_cons]
      have here := h.others candidate
      generalize p.find? candidate = f at here ⊢
      generalize q.find? candidate = g at here ⊢
      cases here with
      | none => exact ih
      | some same => exact .some same
  · exact .none

/-- A fix does the same to a file. -/
theorem apply (h : LooksSame path p q) (f : SourceFile) (fix : Fix) :
    r.apply q f fix = r.apply p f fix := by
  cases fix with
  -- Only the conversion to a default import looks at another module.
  | importByName name specifier => simp only [Repairs.apply, importByName, h.root_eq]
  | addImport name => rfl
  | correctPath specifier => simp only [Repairs.apply, correctPath, h.root_eq]
  | importDefault name specifier =>
    simp only [Repairs.apply, importDefault, h.root_eq]
    congr 1
    funext o
    split
    · rfl
    · next d found =>
      have target := h.resolve? f.path d.specifier
      generalize p.resolve? f.path d.specifier = before at target ⊢
      generalize q.resolve? f.path d.specifier = after at target ⊢
      cases target with
      | none => rfl
      | some same => simp only [same name]

theorem put (h : LooksSame path p q) (named : f.path = path) :
    LooksSame path (p.put f) (q.put f) where
  directory_eq := h.directory_eq
  root_eq := h.root_eq
  here := by rw [← named, Project.find?_put, Project.find?_put]
  others other := by
    by_cases same : other = f.path
    · rw [same, Project.find?_put, Project.find?_put]
      exact sameOffers_rel_refl _
    · rw [Project.find?_put_of_ne _ same, Project.find?_put_of_ne _ same]
      exact h.others other

end LooksSame

/-! ## One file -/

/-- What fixes of the file under a path do to the work, as far as other fixes can see. -/
structure Fixes (r : Repairs) (path : String) (fixes : List Fix) (w w' : Work)
    (actions : List FixAction) : Prop where
  directory_eq : w'.project.directory = w.project.directory
  root_eq : w'.project.root = w.project.root
  here : Option.Rel (fun f => Edited (Repairing r w.project.root f.specifier? fixes) f)
    (w.project.find? path) (w'.project.find? path)
  others : ∀ other ≠ path, w'.project.find? other = w.project.find? other
  stats_eq : w'.stats = w.stats.plus 0 actions.length
  paths : ∀ a ∈ actions, a.path = path

variable {path : String} {fixes : List Fix} {w w' w'' : Work} {actions actions' : List FixAction}

theorem Fixes.unchanged (project : w'.project = w.project) (stats : w'.stats = w.stats) :
    Fixes r path fixes w w' [] where
  directory_eq := by rw [project]
  root_eq := by rw [project]
  here := by
    rw [project]
    cases w.project.find? path with
    | none => exact .none
    | some f => exact .some .refl
  others _ _ := by rw [project]
  stats_eq := stats
  paths := by simp

theorem Fixes.trans (h : Fixes r path fixes w w' actions)
    (h' : Fixes r path fixes w' w'' actions') :
    Fixes r path fixes w w'' (actions ++ actions') where
  directory_eq := h'.directory_eq.trans h.directory_eq
  root_eq := h'.root_eq.trans h.root_eq
  here := by
    have first := h.here
    have second := h'.here
    rw [h.root_eq] at second
    generalize w.project.find? path = f at first ⊢
    generalize w'.project.find? path = g at first second
    generalize w''.project.find? path = k at second ⊢
    cases first with
    | none =>
      cases second
      exact .none
    | some first =>
      cases second with
      | some second =>
        rw [first.specifier?_eq] at second
        exact .some (first.trans second)
  others other ne := (h'.others other ne).trans (h.others other ne)
  stats_eq := by
    rw [h'.stats_eq, h.stats_eq]
    simp [Stats.plus, Nat.add_assoc]
  paths a ha := (List.mem_append.mp ha).elim (h.paths a) (h'.paths a)

/-- One diagnostic, where a failure is reported. -/
theorem fixOne_reported_run (r : Repairs) (path : String) (d : Diagnostic) (w : Work) :
    ((r.fixOne path d).orReport none (.diagnosticFailed d.code)).run w =
      match Fix.classify? d.code d.message, w.project.find? path with
      | some fix, some f =>
        match r.apply w.project f fix with
        | .error e => (none, { w with notices := w.notices ++ [.diagnosticFailed d.code e] })
        | .ok none => (none, w)
        | .ok (some (f', text)) => (some ⟨d.code, path, text⟩, { w with
            project := w.project.put f'
            stats := w.stats.plus 0 1 })
      | _, _ => (none, w) := by
  rw [Attempt.orReport_run, fixOne_run]
  cases Fix.classify? d.code d.message with
  | none => rfl
  | some fix =>
    cases w.project.find? path with
    | none => rfl
    | some f =>
      dsimp only
      rcases r.apply w.project f fix with e | none | ⟨f', text⟩ <;> rfl

theorem fixOne_fixes (r : Repairs) (path : String) (d : Diagnostic) (w : Work)
    (looked : ∀ fix ∈ Fix.classify? d.code d.message, fix ∈ fixes) :
    Fixes r path fixes w
      (((r.fixOne path d).orReport none (.diagnosticFailed d.code)).run w).2
      (((r.fixOne path d).orReport none (.diagnosticFailed d.code)).run w).1.toList := by
  rw [fixOne_reported_run]
  split
  · next fix f classified found =>
    split
    · exact .unchanged rfl rfl
    · exact .unchanged rfl rfl
    · next f' text applied =>
      have edited := apply_edited (looked fix classified) applied
      have named : f'.path = path := edited.path.1.trans (Project.path_of_find? found)
      refine ⟨rfl, rfl, ?_, fun other ne => ?_, rfl, by simp⟩
      · rw [found, ← named, Project.find?_put]
        exact .some edited
      · exact Project.find?_put_of_ne _ (named ▸ ne)
  · exact .unchanged rfl rfl

/-- Where a project looks the same, one diagnostic has the same effect. -/
theorem fixOne_looksSame {v : Work} (h : LooksSame path w.project v.project) (r : Repairs)
    (d : Diagnostic) :
    (((r.fixOne path d).orReport none (.diagnosticFailed d.code)).run v).1 =
        (((r.fixOne path d).orReport none (.diagnosticFailed d.code)).run w).1 ∧
      LooksSame path
        (((r.fixOne path d).orReport none (.diagnosticFailed d.code)).run w).2.project
        (((r.fixOne path d).orReport none (.diagnosticFailed d.code)).run v).2.project := by
  rw [fixOne_reported_run, fixOne_reported_run, h.here]
  cases Fix.classify? d.code d.message with
  | none => exact ⟨rfl, h⟩
  | some fix =>
    cases found : w.project.find? path with
    | none => exact ⟨rfl, h⟩
    | some f =>
      dsimp only
      rw [h.apply]
      cases applied : r.apply w.project f fix with
      | error e => exact ⟨rfl, h⟩
      | ok result =>
        cases result with
        | none => exact ⟨rfl, h⟩
        | some repaired =>
          have edited := apply_edited (List.mem_singleton_self fix) applied
          exact ⟨rfl, h.put (edited.path.1.trans (Project.path_of_find? found))⟩

theorem fixFile_fixes (r : Repairs) (path : String) (diagnostics : List Diagnostic) (w : Work) :
    Fixes r path (r.fixes diagnostics) w ((r.fixFile path diagnostics).run w).2
      ((r.fixFile path diagnostics).run w).1 := by
  unfold fixFile fixes
  have all : ∀ looked ⊆ upTo r.limit diagnostics, Fixes r path
      ((upTo r.limit diagnostics).filterMap fun d => Fix.classify? d.code d.message) w
      ((looked.filterMapM fun d =>
        (r.fixOne path d).orReport none (.diagnosticFailed d.code)).run w).2
      ((looked.filterMapM fun d =>
        (r.fixOne path d).orReport none (.diagnosticFailed d.code)).run w).1 := by
    intro looked inside
    induction looked generalizing w with
    | nil => exact .unchanged rfl rfl
    | cons d looked ih =>
      obtain ⟨there, rest⟩ := List.cons_subset.mp inside
      rw [Step.filterMapM_cons]
      exact (fixOne_fixes r path d w fun fix classified =>
        List.mem_filterMap.mpr ⟨d, there, classified⟩).trans (ih _ rest)
  exact all _ (List.Subset.refl _)

/-- Where a project looks the same, the fixes of the file have the same effect. -/
theorem fixFile_looksSame {v : Work} (h : LooksSame path w.project v.project) (r : Repairs)
    (diagnostics : List Diagnostic) :
    ((r.fixFile path diagnostics).run v).1 = ((r.fixFile path diagnostics).run w).1 ∧
      LooksSame path ((r.fixFile path diagnostics).run w).2.project
        ((r.fixFile path diagnostics).run v).2.project := by
  unfold fixFile
  induction upTo r.limit diagnostics generalizing w v with
  | nil => exact ⟨rfl, h⟩
  | cons d looked ih =>
    obtain ⟨same, first⟩ := fixOne_looksSame h r d
    obtain ⟨same', rest⟩ := ih first
    rw [Step.filterMapM_cons, Step.filterMapM_cons]
    exact ⟨by rw [same, same'], rest⟩

/-! ## Several files -/

section

variable (r : Repairs) (diagnostics : DiagnosticsByFile) (start : Work)

/-- What is done to a file when it is fixed alone. -/
def actionsAlone (path : String) : List FixAction :=
  ((r.fixFile path (diagnostics.of path)).run start).1

/-- What becomes of a file when it is fixed alone. -/
def moduleAlone (path : String) : Option SourceFile :=
  ((r.fixFile path (diagnostics.of path)).run start).2.project.find? path

/-- The work after some files were fixed: each of them as if it had been fixed alone. -/
structure FixedEach (done : List String) (processed : Nat) (w : Work) : Prop where
  directory_eq : w.project.directory = start.project.directory
  root_eq : w.project.root = start.project.root
  fixed : ∀ path ∈ done, w.project.find? path = r.moduleAlone diagnostics start path
  kept : ∀ path ∉ done, w.project.find? path = start.project.find? path
  stats_eq : w.stats = start.stats.plus processed
    ((done.flatMap (r.actionsAlone diagnostics start)).length)

variable {r diagnostics start} {done paths : List String} {processed : Nat} {w : Work}

theorem FixedEach.refl : FixedEach r diagnostics start [] 0 start where
  directory_eq := rfl
  root_eq := rfl
  fixed := by simp
  kept _ _ := rfl
  stats_eq := rfl

/-- A file that is still to be fixed looks as it did in the beginning. -/
theorem FixedEach.looksSame (h : FixedEach r diagnostics start done processed w)
    (keeps : ∀ path ∈ done, Option.Rel SameOffers (start.project.find? path)
      (r.moduleAlone diagnostics start path)) {path : String} (fresh : path ∉ done) :
    LooksSame path start.project w.project where
  directory_eq := h.directory_eq
  root_eq := h.root_eq
  here := h.kept path fresh
  others other := by
    by_cases fixed : other ∈ done
    · rw [h.fixed other fixed]
      exact keeps other fixed
    · rw [h.kept other fixed]
      exact sameOffers_rel_refl _

/-- One file more. -/
theorem FixedEach.fixFile (h : FixedEach r diagnostics start done processed w)
    (keeps : ∀ path ∈ done, Option.Rel SameOffers (start.project.find? path)
      (r.moduleAlone diagnostics start path)) {path : String} (fresh : path ∉ done) :
    ((r.fixFile path (diagnostics.of path)).run w).1 = r.actionsAlone diagnostics start path ∧
      FixedEach r diagnostics start (done ++ [path]) processed
        ((r.fixFile path (diagnostics.of path)).run w).2 := by
  have fixes := r.fixFile_fixes path (diagnostics.of path) w
  obtain ⟨same, after⟩ := fixFile_looksSame (h.looksSame keeps fresh) r (diagnostics.of path)
  refine ⟨same, fixes.directory_eq.trans h.directory_eq, fixes.root_eq.trans h.root_eq, ?_, ?_, ?_⟩
  · intro other there
    by_cases here : other = path
    · rw [here]
      exact after.here
    · have before : other ∈ done := by simpa [here] using there
      rw [fixes.others other here, h.fixed other before]
  · intro other absent
    have absent : other ∉ done ∧ other ≠ path := by simpa using absent
    rw [fixes.others other absent.2, h.kept other absent.1]
  · rw [fixes.stats_eq, h.stats_eq, same, List.flatMap_append, List.flatMap_singleton]
    simp [Stats.plus, Nat.add_assoc, actionsAlone]

/-- **Each file is fixed as if it were alone**, whatever files were fixed before it. -/
theorem FixedEach.mapM (h : FixedEach r diagnostics start done processed w)
    (keeps : ∀ path ∈ done ++ paths, Option.Rel SameOffers (start.project.find? path)
      (r.moduleAlone diagnostics start path)) (nodup : (done ++ paths).Nodup) :
    ∃ w', (paths.mapM fun path => do
          return (path, ← r.fixFile path (diagnostics.of path)) : Step _).run w =
        (paths.map fun path => (path, r.actionsAlone diagnostics start path), w') ∧
      FixedEach r diagnostics start (done ++ paths) processed w' := by
  -- The file just fixed joins those that are done; the next one has not been touched by it.
  induction paths generalizing done w with
  | nil => exact ⟨w, rfl, by simpa using h⟩
  | cons path paths ih =>
    have fresh : path ∉ done := fun there => by
      rw [List.nodup_append] at nodup
      exact nodup.2.2 path there path List.mem_cons_self rfl
    obtain ⟨same, first⟩ := h.fixFile (fun other there => keeps other
      (List.mem_append_left _ there)) fresh
    have split : done ++ path :: paths = (done ++ [path]) ++ paths := by simp
    rw [split] at keeps nodup ⊢
    obtain ⟨w', rest, fixed⟩ := ih first keeps nodup
    refine ⟨w', ?_, fixed⟩
    have here : ((do return (path, ← r.fixFile path (diagnostics.of path)) : Step _).run w) =
        ((path, r.actionsAlone diagnostics start path),
          ((r.fixFile path (diagnostics.of path)).run w).2) := by
      rw [← same]
      rfl
    rw [Step.mapM_cons, here, rest]
    rfl

end

end Repairs

end ModuleRepair
