import ModuleRepair.Proofs.Diagnostic.Independent
import ModuleRepair.Proofs.Repair.Books

/-!
# The passes keep their books

The conversion of default exports and the repair by a build log also change modules other than the
one they are about. Each pass counts one import for every import that it rewrites, and answers just
the modules that it has changed.
-/
namespace ModuleRepair

open ModuleRepair.Path ModuleRepair.Script ModuleRepair.SourceFile Change

variable {directory name : String} {form : Form} {f g : SourceFile} {w w' w'' : Work}
  {answered answered' rewritten rewritten' : List String}

/-- Imports of some modules have been rewritten, one for each time that a module is listed, and just
these modules are answered. -/
structure Rewritten (form : Form) (name : String) (w : Work) (answered rewritten : List String)
    (w' : Work) : Prop where
  booked : Booked w (rewritten.map (.rebind form · name)) w'
  answers : ∀ path, path ∈ answered ↔ path ∈ rewritten

namespace Rewritten

theorem refl (w : Work) : Rewritten form name w [] [] w :=
  ⟨.refl w, fun _ => .rfl⟩

theorem append (h : Rewritten form name w answered rewritten w')
    (h' : Rewritten form name w' answered' rewritten' w'') :
    Rewritten form name w (answered ++ answered') (rewritten ++ rewritten') w'' where
  booked := by
    rw [List.map_append]
    exact h.booked.append h'.booked
  answers path := by rw [List.mem_append, List.mem_append, h.answers, h'.answers]

theorem others (h : Rewritten form name w answered rewritten w') {path : String}
    (other : path ∉ rewritten) : w'.project.find? path = w.project.find? path := by
  refine h.booked.course.others fun c hc => ?_
  obtain ⟨path', there, rfl⟩ := List.mem_map.mp hc
  exact fun same => other (same ▸ there)

theorem named (h : Rewritten form name w answered rewritten w') :
    Named answered (rewritten.map (.rebind form · name)) := by
  intro path
  simp [h.answers, Change.path]

end Rewritten

theorem Attempt.rewrite_rewritten {rewrite : Project → Except LanguageError (SourceFile × Nat)}
    (rebinds : Rebinds form name f (rewrite w.project)) (ordered : w.project.Ordered)
    (found : w.project.find? f.path = some f) :
    ∃ path? w' rewritten, (Attempt.rewrite rewrite).run w = (.ok path?, w') ∧
      Rewritten form name w path?.toList rewritten w' ∧ ∀ path ∈ rewritten, path = f.path := by
  obtain ⟨g, count, result, same, course⟩ := rebinds
  rw [rewrite_run, result]
  dsimp only
  split
  · exact ⟨none, w, [], rfl, .refl w, nofun⟩
  · next some =>
    refine ⟨_, _, List.replicate count f.path, rfl, ⟨⟨?_, ?_, ?_, ?_⟩, ?_⟩,
      fun path => List.eq_of_mem_replicate⟩
    · rw [List.map_replicate]
      exact course w.project ordered found
    all_goals simp [List.countP_replicate, Change.isExport, Change.isFix, same, some]

/-- Imports of several modules are rewritten, each of which is given as it is in the project. -/
theorem Attempt.filterMapM_rewritten
    {rewrite : SourceFile → Project → Except LanguageError (SourceFile × Nat)}
    (rebinds : ∀ f p l, Language.ofPath f.path = .ok l → Rebinds form name f (rewrite f p))
    {files : List SourceFile} (readable : w.project.Readable directory)
    (nodup : (files.map (·.path)).Nodup)
    (current : ∀ f ∈ files, w.project.find? f.path = some f) :
    ∃ answered w' rewritten,
      (files.filterMapM fun f => Attempt.rewrite (rewrite f)).run w = (.ok answered, w') ∧
      Rewritten form name w answered rewritten w' ∧
      ∀ path ∈ rewritten, path ∈ files.map (·.path) := by
  induction files generalizing w with
  | nil => exact ⟨[], w, [], rfl, .refl w, nofun⟩
  | cons f files ih =>
    obtain ⟨fresh, nodup⟩ := List.nodup_cons.mp nodup
    obtain ⟨here, later⟩ := List.forall_mem_cons.mp current
    obtain ⟨l, language⟩ := readable.language (List.mem_of_find?_eq_some here)
    obtain ⟨path?, w', rewritten, run, first, own⟩ :=
      rewrite_rewritten (rebinds f w.project l language) readable.ordered here
    have later : ∀ g ∈ files, w'.project.find? g.path = some g := by
      intro g hg
      have apart : g.path ∉ rewritten := fun there =>
        fresh (List.mem_map.mpr ⟨g, hg, own g.path there⟩)
      rw [first.others apart, later g hg]
    obtain ⟨answered, w'', rewritten', rest, second, among⟩ :=
      ih (readable.lead first.booked.course) nodup later
    refine ⟨_, w'', rewritten ++ rewritten', ?_, first.append second, ?_⟩
    · rw [filterMapM_cons_run, run]
      simp only [rest]
    · intro path there
      rcases List.mem_append.mp there with there | there
      · exact List.mem_cons.mpr (.inl (own path there))
      · exact List.mem_cons_of_mem _ (among path there)

/-- Imports of all modules but one are rewritten. -/
theorem Attempt.others_rewritten
    {rewrite : SourceFile → Project → Except LanguageError (SourceFile × Nat)}
    (rebinds : ∀ f p l, Language.ofPath f.path = .ok l → Rebinds form name f (rewrite f p))
    (readable : w.project.Readable directory) (path : String) :
    ∃ answered w' rewritten,
      ((w.project.files.filter (·.path ≠ path)).filterMapM
        fun f => Attempt.rewrite (rewrite f)).run w = (.ok answered, w') ∧
      Rewritten form name w answered rewritten w' ∧ path ∉ rewritten := by
  obtain ⟨nodup, current⟩ := readable.ordered.others path
  obtain ⟨answered, w', rewritten, run, rewrites, among⟩ :=
    filterMapM_rewritten rebinds readable nodup current
  refine ⟨answered, w', rewritten, run, rewrites, fun there => ?_⟩
  obtain ⟨f, hf, same⟩ := List.mem_map.mp (among path there)
  simpa [same] using (List.mem_filter.mp hf).2

/-! ## Default exports -/

/-- What the conversion of a module has done: its default export has become an export of this name,
and before that imports of these modules, one for each time that a module is listed. -/
structure Conversion where
  path : String
  name : String
  importers : List String

def Conversion.changes (c : Conversion) : List Change :=
  c.importers.map (.rebind .byName · c.name) ++ [.exportByName c.path c.name]

/-- The changes of an entry that leads to a conversion or to none. -/
def Conversion.changesOf (c? : Option Conversion) : List Change :=
  (c?.map (·.changes)).getD []

namespace Normalize

open Conversion

theorem exportByName_eq_ok {l : Language} (language : Language.ofPath f.path = .ok l)
    (name : String) : ∃ g, exportByName f name = .ok g := by
  obtain ⟨marked?, marking, same⟩ :
      ∃ marked?, f.markExported name = .ok marked? ∧ (marked?.getD f).path = f.path := by
    simp only [markExported, outline_eq_ok language, bind, Except.bind]
    split
    · exact ⟨none, rfl, rfl⟩
    · split
      · exact ⟨none, rfl, rfl⟩
      · exact ⟨some _, rfl, rfl⟩
  rw [← same] at language
  simp only [exportByName, marking, removeDefaultExport, outline_eq_ok language, bind, Except.bind]
  exact ⟨_, rfl⟩

theorem module_booked (readable : w.project.Readable directory)
    (found : w.project.find? f.path = some f) :
    ∃ touched w' c?, (module f).run w = (.ok touched, w') ∧ Booked w (changesOf c?) w' ∧
      Named touched (changesOf c?) ∧ ∀ c ∈ c?, c.path = f.path := by
  obtain ⟨l, language⟩ := readable.language (List.mem_of_find?_eq_some found)
  have read := outline_eq_ok language
  have run := module_run f w
  simp only [read] at run
  cases convertible : convertibleName? ((outline? l f.text).getD {}) with
  | none =>
    simp only [convertible] at run
    exact ⟨[], w, none, run, .refl w, .nil, nofun⟩
  | some name =>
    obtain ⟨answered, w', rewritten, others, rewrites, apart⟩ :=
      Attempt.others_rewritten
        (fun _ p _ language => rewriteImporter_rebinds language p f.path name) readable f.path
    obtain ⟨g, exported⟩ := exportByName_eq_ok language name
    have others : ((w.project.files.filter (·.path ≠ f.path)).filterMapM (importer f.path name)).run
      w = (.ok answered, w') := others
    simp only [convertible, others, exported] at run
    refine ⟨_, _, some ⟨f.path, name, rewritten⟩, run, rewrites.booked.append ?_,
      rewrites.named.append (by simp [Named, Change.path, eq_comm]), by simp⟩
    have still : w'.project.find? f.path = some f := (rewrites.others apart).trans found
    exact ⟨.cons still (.exportByName read convertible exported) (.nil _), rfl, rfl, rfl⟩

theorem path_booked (entry : String) (readable : w.project.Readable directory) :
    ∃ c?, (∀ c ∈ c?, c.path = absolute (join directory entry)) ∧
      Booked w (changesOf c?) ((path entry).run w).2 ∧
      Named ((path entry).run w).1 (changesOf c?) := by
  unfold path
  rw [Step.run_get_bind]
  cases found : w.project.get? entry with
  | none => exact ⟨none, nofun, .of_same rfl rfl, .nil⟩
  | some f =>
    obtain ⟨touched, w', c?, run, booked, named, own⟩ :=
      module_booked readable (find?_of_get? found)
    have same : f.path = absolute (join directory entry) := by
      rw [← readable.directory_eq]
      exact Project.path_of_find? found
    refine ⟨c?, fun c hc => (own c hc).trans same, ?_⟩
    dsimp only
    rw [Attempt.orReport_run, run]
    exact ⟨booked, named⟩

theorem paths_booked (allowed : List String) (readable : w.project.Readable directory) :
    ∃ entries, List.Forall₂ (fun entry c? => ∀ c ∈ c?, c.path = absolute (join directory entry))
        allowed entries ∧ Booked w (entries.flatMap changesOf) ((paths allowed).run w).2 ∧
      Named ((paths allowed).run w).1 (entries.flatMap changesOf) := by
  obtain ⟨entries, fits, booked, named⟩ :=
    Step.mapM_booked _ (fun entry _ => path_booked entry) allowed readable
  exact ⟨entries, fits, booked, named.sorted⟩

end Normalize

/-! ## Diagnostics -/

namespace Repairs

theorem fixOne_booked (r : Repairs) (path : String) (d : Diagnostic) (w : Work) :
    let fixed := ((r.fixOne path d).orReport none (.diagnosticFailed d.code)).run w
    Booked w (fixed.1.toList.map .fix) fixed.2 := by
  intro fixed
  have run := fixOne_reported_run r path d w
  change fixed = _ at run
  rw [run]
  split
  · next fix f classified found =>
    obtain rfl := Project.path_of_find? found
    split
    · exact .of_same rfl rfl
    · exact .refl w
    · next g text applied => exact ⟨.cons found (.fix applied) (.nil _), rfl, rfl, rfl⟩
  · exact .refl w

theorem fixFile_booked (r : Repairs) (path : String) (diagnostics : List Diagnostic) (w : Work) :
    Booked w (((r.fixFile path diagnostics).run w).1.map .fix)
      ((r.fixFile path diagnostics).run w).2 := by
  unfold fixFile
  induction upTo r.limit diagnostics generalizing w with
  | nil => exact .refl w
  | cons d diagnostics ih =>
    rw [Step.filterMapM_cons, List.map_append]
    exact (r.fixOne_booked path d w).append (ih _)

/-- Files to which nothing is done have no part in what is done. -/
theorem flatMap_filter (done : List (String × List FixAction)) :
    (done.filter (!·.2.isEmpty)).flatMap (·.2) = done.flatMap (·.2) := by
  induction done with
  | nil => rfl
  | cons one done ih =>
    obtain ⟨path, actions⟩ := one
    cases actions <;> simp [ih]

/-- What is done to several files is recorded with each of them. -/
theorem fixFiles_booked (r : Repairs) (paths : List String) (diagnostics : DiagnosticsByFile)
    (w : Work) :
    let fixed := (r.fixFiles paths diagnostics).run w
    Booked w ((fixed.1.flatMap (·.2)).map .fix) fixed.2 ∧
      ∀ done ∈ fixed.1, done.2 ≠ [] ∧ ∀ action ∈ done.2, action.path = done.1 := by
  intro fixed
  let one (path : String) : Step (String × List FixAction) :=
    return (path, ← r.fixFile path (diagnostics.of path))
  have each : Booked w ((((paths.mapM one).run w).1.flatMap (·.2)).map .fix)
        ((paths.mapM one).run w).2 ∧
      ∀ done ∈ ((paths.mapM one).run w).1, ∀ action ∈ done.2, action.path = done.1 := by
    clear fixed
    induction paths generalizing w with
    | nil => exact ⟨.refl w, nofun⟩
    | cons path paths ih =>
      obtain ⟨rest, owns⟩ := ih ((one path).run w).2
      rw [Step.mapM_cons, List.flatMap_cons, List.map_append]
      refine ⟨(r.fixFile_booked path _ w).append rest, List.forall_mem_cons.mpr ⟨?_, owns⟩⟩
      exact (r.fixFile_fixes path _ w).paths
  have filtered : fixed = (((paths.mapM one).run w).1.filter (!·.2.isEmpty),
      ((paths.mapM one).run w).2) := rfl
  rw [filtered, flatMap_filter]
  refine ⟨each.1, fun done hd => ?_⟩
  obtain ⟨there, some⟩ := List.mem_filter.mp hd
  exact ⟨by simpa using some, each.2 done there⟩

/-- The files that are answered are those that something is done to. -/
theorem named_of_actions {done : List (String × List FixAction)}
    (h : ∀ one ∈ done, one.2 ≠ [] ∧ ∀ action ∈ one.2, action.path = one.1) :
    Named (done.map (·.1)) ((done.flatMap (·.2)).map .fix) := by
  intro path
  simp only [List.mem_map, List.mem_flatMap, exists_exists_and_eq_and]
  constructor
  · rintro ⟨one, there, rfl⟩
    obtain ⟨some, own⟩ := h one there
    obtain ⟨action, ha⟩ := List.exists_mem_of_ne_nil _ some
    exact ⟨action, ⟨one, there, ha⟩, own action ha⟩
  · rintro ⟨action, ⟨one, there, ha⟩, rfl⟩
    exact ⟨one, there, ((h one there).2 action ha).symm⟩

end Repairs

/-! ## Build logs -/

namespace BuildLog

/-- An import of a module that has been rewritten to bind a name by default. -/
def changeOf (import? : String × String) : Change :=
  .rebind .byDefault import?.1 import?.2

/-- How one mismatch is repaired: in all modules but the one that it is about. -/
theorem repairOne_run (m : Mismatch) (w : Work) :
    (repairOne m).run w =
      match w.project.locate? m.specifier with
      | none => (.ok [], w)
      | some defining =>
        match defining.outline with
        | .error e => (.error e, w)
        | .ok o =>
          if o.defaultExport.isNone || o.namedExports.contains m.name then (.ok [], w)
          else ((w.project.files.filter (·.path ≠ defining.path)).filterMapM
            (consumer m defining.path)).run w := by
  unfold repairOne
  rw [Attempt.run_get_bind]
  cases w.project.locate? m.specifier with
  | none => rfl
  | some defining =>
    dsimp only
    rw [Attempt.run_bind, Attempt.of_run]
    cases defining.outline with
    | error e => rfl
    | ok o =>
      dsimp only
      cases o.defaultExport.isNone || o.namedExports.contains m.name <;> rfl

theorem repairOne_booked (m : Mismatch) (notice : LanguageError → Notice)
    (readable : w.project.Readable directory) :
    ∃ mended : List (String × String),
      Booked w (mended.map changeOf) (((repairOne m).orReport [] notice).run w).2 ∧
      Named (((repairOne m).orReport [] notice).run w).1 (mended.map changeOf) := by
  rw [Attempt.orReport_run, repairOne_run]
  cases w.project.locate? m.specifier with
  | none => exact ⟨[], .refl w, .nil⟩
  | some defining =>
    dsimp only
    cases defining.outline with
    | error e => exact ⟨[], .of_same rfl rfl, .nil⟩
    | ok o =>
      dsimp only
      cases o.defaultExport.isNone || o.namedExports.contains m.name with
      | true => exact ⟨[], .refl w, .nil⟩
      | false =>
        obtain ⟨answered, w', rewritten, run, rewrites, -⟩ :=
          Attempt.others_rewritten (fun _ p _ language =>
            rewriteConsumer_rebinds language p m defining.path) readable defining.path
        have run : ((w.project.files.filter (·.path ≠ defining.path)).filterMapM
          (consumer m defining.path)).run w = (.ok answered, w') := run
        have same : (rewritten.map (·, m.name)).map changeOf =
            rewritten.map (.rebind .byDefault · m.name) := by
          rw [List.map_map]
          rfl
        refine ⟨rewritten.map (·, m.name), ?_⟩
        simp only [Bool.false_eq_true, if_false, run, same]
        exact ⟨rewrites.booked, rewrites.named⟩

theorem repair_booked (log : String) (readable : w.project.Readable directory) :
    ∃ mended : List (String × String), Booked w (mended.map changeOf) ((repair log).run w).2 ∧
      Named ((repair log).run w).1 (mended.map changeOf) := by
  have one (m : Mismatch) (w : Work) (readable : w.project.Readable directory) :=
    repairOne_booked m (.mismatchFailed m.name m.specifier) readable
  obtain ⟨mended, -, booked, named⟩ := Step.mapM_booked (fun _ _ => True)
    (fun m w readable => (one m w readable).imp fun _ h => ⟨trivial, h⟩) (mismatches log) readable
  refine ⟨mended.flatten, ?_⟩
  rw [List.map_flatten, ← List.flatMap_def]
  exact ⟨booked, named.sorted⟩

end BuildLog

end ModuleRepair
