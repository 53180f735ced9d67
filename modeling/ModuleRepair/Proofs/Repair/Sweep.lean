import Mathlib.Algebra.Ring.Nat
import ModuleRepair.Proofs.Project.SamePaths
import ModuleRepair.Proofs.Run.Clauses
import ModuleRepair.Proofs.SourceFile.OneByOne

/-!
# Rewriting one module after the other

Two passes rewrite the imports of all modules but one, a module at a time. What is rewritten in a
module depends on the paths of the others only, so each module becomes what it would become in the
project at the start (`Attempt.others_swept`). When modules are read again as they have been
rewritten, no import of the kind is left in the end, all other imports are as they were, and the
books are right (`Sweep.allOf_swept`).
-/
namespace ModuleRepair

open ModuleRepair.Script ModuleRepair.SourceFile

/-- A way to rewrite the imports of a module in a project, and to count them. -/
abbrev Sweep := SourceFile → Project → Except LanguageError (SourceFile × Nat)

namespace Sweep

variable {rewrite : Sweep} {p : Project} {f g : SourceFile} {count : Nat}

/-- What a module becomes, and how many of its imports are rewritten. A module that cannot be read
stays as it is. -/
def result (rewrite : Sweep) (p : Project) (f : SourceFile) : SourceFile × Nat :=
  (rewrite f p).toOption.getD (f, 0)

/-- A module is rewritten under its path, and stays as it is where there is nothing to rewrite. -/
def Succeeds (rewrite : Sweep) (p : Project) (f : SourceFile) : Prop :=
  ∃ g count, rewrite f p = .ok (g, count) ∧ g.path = f.path ∧ (count = 0 → g = f)

theorem result_eq (h : rewrite f p = .ok (g, count)) : rewrite.result p f = (g, count) := by
  rw [result, h]
  rfl

theorem Succeeds.eq_ok (h : rewrite.Succeeds p f) :
    rewrite f p = .ok ((rewrite.result p f).1, (rewrite.result p f).2) := by
  obtain ⟨g, count, done, -⟩ := h
  rw [result_eq done, done]

theorem Succeeds.path (h : rewrite.Succeeds p f) : (rewrite.result p f).1.path = f.path := by
  obtain ⟨g, count, done, same, -⟩ := h
  rwa [result_eq done]

theorem Succeeds.idle (h : rewrite.Succeeds p f) (none : (rewrite.result p f).2 = 0) :
    (rewrite.result p f).1 = f := by
  obtain ⟨g, count, done, -, idle⟩ := h
  rw [result_eq done] at none ⊢
  exact idle none

/-- The module that is put in the place of one has its path. -/
theorem Succeeds.path_replaced (h : rewrite.Succeeds p f) (k : SourceFile) :
    (if k.path = f.path then (rewrite.result p f).1 else k).path = k.path := by
  split
  · next same => rw [h.path, same]
  · rfl

/-- A module keeps its path, whether or not it is the one that is left out. -/
theorem Succeeds.path_except (h : rewrite.Succeeds p f) (target : String) :
    (if f.path = target then f else (rewrite.result p f).1).path = f.path := by
  split
  · rfl
  · exact h.path

/-- A module that is changed first, and then the others, are all changed at once. -/
theorem mapFiles_result_cons {q : Project} {files : List SourceFile} (ordered : q.Ordered)
    (hf : f ∈ q.files) (h : rewrite.Succeeds p f) (fresh : f.path ∉ files.map (·.path)) :
    ((q.mapFiles fun k => if k.path = f.path then (rewrite.result p f).1 else k).mapFiles fun k =>
        if k.path ∈ files.map (·.path) then (rewrite.result p k).1 else k) =
      q.mapFiles fun k =>
        if k.path ∈ (f :: files).map (·.path) then (rewrite.result p k).1 else k := by
  rw [Project.mapFiles_mapFiles]
  refine Project.mapFiles_congr fun k hk => ?_
  by_cases same : k.path = f.path
  · obtain rfl := ordered.eq_of_path hf hk same
    simp only [Function.comp_apply, if_true, h.path, if_neg fresh, List.map_cons, List.mem_cons,
      true_or]
  · simp only [Function.comp_apply, same, if_false, List.map_cons, List.mem_cons, false_or]

end Sweep

namespace Attempt

variable {rewrite : Sweep} {p : Project} {w : Work} {f g : SourceFile} {count : Nat}
  {files : List SourceFile}

/-- One module is put back, whether or not any of its imports has been rewritten. -/
theorem rewrite_run_mapFiles (ordered : w.project.Ordered) (hf : f ∈ w.project.files)
    (result : rewrite f w.project = .ok (g, count)) (same : g.path = f.path)
    (idle : count = 0 → g = f) :
    (Attempt.rewrite (rewrite f)).run w = (.ok (if count = 0 then none else some f.path), { w with
      project := w.project.mapFiles fun k => if k.path = f.path then g else k
      stats := { w.stats with importsFixed := w.stats.importsFixed + count } }) := by
  rw [rewrite_run, result]
  dsimp only
  split
  · next none =>
    obtain rfl := idle none
    have unchanged : (w.project.mapFiles fun k => if k.path = g.path then g else k) = w.project :=
      Project.mapFiles_eq_self fun k hk => by
        split
        · next here => exact (ordered.eq_of_path hf hk here).symm
        · rfl
    rw [unchanged, none]
    rfl
  · rw [ordered.put_eq_mapFiles hf same, same]

/-- Each of several modules is rewritten as it would be in the project at the start. -/
theorem filterMapM_swept (succeeds : ∀ f ∈ files, rewrite.Succeeds p f)
    (stable : ∀ f q, p.SamePaths q → rewrite f q = rewrite f p) (ordered : w.project.Ordered)
    (paths : p.SamePaths w.project) (nodup : (files.map (·.path)).Nodup)
    (current : ∀ f ∈ files, f ∈ w.project.files) :
    (files.filterMapM fun f => Attempt.rewrite (rewrite f)).run w =
      (.ok ((files.filter fun f => (rewrite.result p f).2 ≠ 0).map (·.path)), { w with
        project := w.project.mapFiles fun f =>
          if f.path ∈ files.map (·.path) then (rewrite.result p f).1 else f
        stats := { w.stats with importsFixed :=
          w.stats.importsFixed + (files.map fun f => (rewrite.result p f).2).sum } }) := by
  induction files generalizing w with
  | nil =>
    have unchanged : (w.project.mapFiles fun f =>
        if f.path ∈ ([] : List SourceFile).map (·.path) then (rewrite.result p f).1 else f) =
          w.project :=
      Project.mapFiles_eq_self fun f _ => if_neg (by simp)
    rw [unchanged]
    rfl
  | cons f files ih =>
    obtain ⟨fresh, nodup⟩ := List.nodup_cons.mp nodup
    obtain ⟨here, later⟩ := List.forall_mem_cons.mp current
    obtain ⟨first, succeeds⟩ := List.forall_mem_cons.mp succeeds
    have own : ∀ k ∈ w.project.files,
        (if k.path = f.path then (rewrite.result p f).1 else k).path = k.path :=
      fun k _ => first.path_replaced k
    have others : ∀ k ∈ files, k ∈ (w.project.mapFiles fun k =>
        if k.path = f.path then (rewrite.result p f).1 else k).files := by
      intro k hk
      have apart : k.path ≠ f.path := fun same => fresh (List.mem_map.mpr ⟨k, hk, same⟩)
      exact List.mem_map.mpr ⟨k, later k hk, if_neg apart⟩
    have run := rewrite_run_mapFiles ordered here ((stable f _ paths).trans first.eq_ok) first.path
      first.idle
    rw [filterMapM_cons_run, run]
    dsimp only
    rw [ih succeeds (ordered.mapFiles own) (paths.trans (.mapFiles own)) nodup others]
    have answers : ((f :: files).filter fun f => (rewrite.result p f).2 ≠ 0).map (·.path) =
        (if (rewrite.result p f).2 = 0 then none else some f.path).toList ++
          (files.filter fun f => (rewrite.result p f).2 ≠ 0).map (·.path) := by
      rw [List.filter_cons]
      by_cases none : (rewrite.result p f).2 = 0 <;> simp [none]
    have total : w.stats.importsFixed + ((f :: files).map fun f => (rewrite.result p f).2).sum =
        w.stats.importsFixed + (rewrite.result p f).2 +
          (files.map fun f => (rewrite.result p f).2).sum := by
      rw [List.map_cons, List.sum_cons, Nat.add_assoc]
    rw [answers, Sweep.mapFiles_result_cons ordered here first fresh, total]

/-- **All modules but one are rewritten.** -/
theorem others_swept (stable : ∀ f q, w.project.SamePaths q → rewrite f q = rewrite f w.project)
    (ordered : w.project.Ordered) (target : String)
    (succeeds : ∀ f ∈ w.project.files, f.path ≠ target → rewrite.Succeeds w.project f) :
    let others := w.project.files.filter (·.path ≠ target)
    (others.filterMapM fun f => Attempt.rewrite (rewrite f)).run w =
      (.ok ((others.filter fun f => (rewrite.result w.project f).2 ≠ 0).map (·.path)), { w with
        project := w.project.mapFiles fun f =>
          if f.path = target then f else (rewrite.result w.project f).1
        stats := { w.stats with importsFixed := w.stats.importsFixed +
          (others.map fun f => (rewrite.result w.project f).2).sum } }) := by
  intro others
  have among {f : SourceFile} (hf : f ∈ others) : f ∈ w.project.files ∧ f.path ≠ target := by
    simpa [others] using hf
  have swept := filterMapM_swept (fun f hf => succeeds f (among hf).1 (among hf).2) stable ordered
    (.refl _) (ordered.others target).1 fun f hf => (among hf).1
  have project : (w.project.mapFiles fun f =>
      if f.path ∈ others.map (·.path) then (rewrite.result w.project f).1 else f) =
      w.project.mapFiles fun f =>
        if f.path = target then f else (rewrite.result w.project f).1 := by
    refine Project.mapFiles_congr fun f hf => ?_
    have other : f.path ∈ others.map (·.path) ↔ f.path ≠ target := by
      constructor
      · intro there
        obtain ⟨k, hk, same⟩ := List.mem_map.mp there
        exact same ▸ (among hk).2
      · exact fun apart => List.mem_map_of_mem (List.mem_filter.mpr ⟨hf, by simpa using apart⟩)
    by_cases here : f.path = target
    · rw [if_neg fun there => other.mp there here, if_pos here]
    · rw [if_pos (other.mpr here), if_neg here]
  rw [swept, project]

/-- What a module is when all but one are rewritten. -/
theorem others_swept_find?
    (stable : ∀ f q, w.project.SamePaths q → rewrite f q = rewrite f w.project)
    (ordered : w.project.Ordered) (target : String)
    (succeeds : ∀ f ∈ w.project.files, rewrite.Succeeds w.project f) (hf : f ∈ w.project.files) :
    (((w.project.files.filter (·.path ≠ target)).filterMapM fun f =>
        Attempt.rewrite (rewrite f)).run w).2.project.find? f.path =
      some (if f.path = target then f else (rewrite.result w.project f).1) := by
  rw [others_swept stable ordered target fun f hf _ => succeeds f hf,
    Project.find?_mapFiles fun f hf => (succeeds f hf).path_except target,
    ordered.find?_of_mem hf, Option.map_some]

end Attempt

/-! ## All imports of a kind -/

namespace Sweep

variable {q : Project → String → Import → Bool} {t : Import → Option Import} {p : Project}
  {f : SourceFile}

/-- Rewrites all imports of a kind in a module. Of which kind an import is depends on the project
and on the path of the module. -/
def allOf (q : Project → String → Import → Bool) (t : Import → Option Import) : Sweep :=
  fun f p => do rewriteWhere (q p f.path) t (← f.outline).imports.length f

theorem allOf_succeeds {l : Language} (language : Language.ofPath f.path = .ok l) :
    (allOf q t).Succeeds p f := by
  simp only [Succeeds, allOf, outline_eq_ok language, bind, Except.bind]
  exact rewriteWhere_path _ _ _ language

/-- While other modules change, the same imports are rewritten. -/
theorem allOf_stable {p' : Project} (h : q p' = q p) (f : SourceFile) :
    allOf q t f p' = allOf q t f p := by
  simp only [allOf, h]

end Sweep

namespace SourceFile

/-- All imports of a kind have been rewritten in a module: none of the kind is left, each of them
has become what it should, and all others are as they were, apart from their places. A module
without such imports is the same as before. -/
structure AllRewritten (kind kind' : Import → Prop) (becomes : Import → Import → Prop)
    (o : Outline) (f g : SourceFile) : Prop where
  path : g.path = f.path
  none : ∃ o', g.read = .ok (some o') ∧ (∀ e ∈ o'.imports, ¬ kind' e) ∧
    List.Forall₂ (fun d e => (kind d → becomes d e) ∧ (¬ kind d → unplaced e = unplaced d))
      o.imports o'.imports
  idle : (∀ d ∈ o.imports, ¬ kind d) → g = f

theorem AllRewritten.congr {kind kind' kind'' : Import → Prop} {becomes : Import → Import → Prop}
    {o : Outline} {f g : SourceFile} (h : AllRewritten kind kind' becomes o f g)
    (same : ∀ d, kind'' d ↔ kind' d) : AllRewritten kind kind'' becomes o f g := by
  obtain ⟨o', hr, none, each⟩ := h.none
  exact ⟨h.path, ⟨o', hr, fun e he => (same e).not.mpr (none e he), each⟩, h.idle⟩

end SourceFile

/-- All imports of a kind have been rewritten in all modules of a project but one. The imports are
counted, and the modules that had one are answered. -/
structure Swept (kind : Project → String → Import → Prop) [∀ p path, DecidablePred (kind p path)]
    (becomes : Import → Import → Prop) (target : String)
    (w : Work) (touched : List String) (w' : Work) : Prop where
  modules : List.Forall₂ (fun f g => if f.path = target then g = f
    else AllRewritten (kind w.project f.path) (kind w'.project f.path) becomes f.outlineD f g)
      w.project.files w'.project.files
  ordered : w'.project.Ordered
  paths : w.project.SamePaths w'.project
  counted : w'.stats = { w.stats with importsFixed := w.stats.importsFixed +
    ((w.project.files.filter (·.path ≠ target)).map fun f =>
      f.outlineD.imports.countP fun d => kind w.project f.path d).sum }
  notices : w'.notices = w.notices
  answered : ∀ path, path ∈ touched ↔ ∃ f ∈ w.project.files, f.path = path ∧ f.path ≠ target ∧
    ∃ d ∈ f.outlineD.imports, kind w.project f.path d

namespace Sweep

variable {kind : Project → String → Import → Prop} [∀ p path, DecidablePred (kind p path)]
  {q : Project → String → Import → Bool} {t : Import → Option Import}
  {becomes : Import → Import → Prop} {files : SourceFile → Prop}
  {p p' : Project} {f : SourceFile} {o : Outline} {w : Work}

/-- In one module all imports of the kind are rewritten. -/
theorem allOf_eq_ok (decides : ∀ p path d, q p path d = true ↔ kind p path d) (stable : q p' = q p)
    (away : RewritesAway files unplaced (q p f.path) t)
    (becoming : ∀ d ∈ o.imports, kind p f.path d → ∀ new e, t d = some new →
      unplaced e = new.normal → becomes d e)
    (hf : files f) (hr : f.read = .ok (some o)) :
    ∃ g, allOf q t f p = .ok (g, o.imports.countP fun d => kind p f.path d) ∧
      AllRewritten (kind p f.path) (kind p' f.path) becomes o f g := by
  have refutes (p : Project) (path : String) (d : Import) :
      q p path d = false ↔ ¬ kind p path d := by rw [← decides, Bool.not_eq_true]
  have count : (o.imports.countP fun d => kind p f.path d) = o.imports.countP (q p f.path) :=
    List.countP_congr fun d _ => by rw [decide_eq_true_iff, decides]
  obtain ⟨g, o', run, hr', none, each⟩ := rewriteWhere_each away hf hr List.countP_le_length
    fun d hd hq => becoming d hd ((decides ..).mp hq)
  have run : allOf q t f p = .ok (g, o.imports.countP fun d => kind p f.path d) := by
    simp only [allOf, outline_of_read hr, bind, Except.bind, run, count]
  obtain ⟨l, language⟩ := language_of_outline (outline_of_read hr)
  have succeeds : (allOf q t).Succeeds p f := allOf_succeeds language
  have path := succeeds.path
  have idle := succeeds.idle
  rw [result_eq run] at path idle
  refine ⟨g, run, path, ⟨o', hr', fun e he => ?_, each.imp fun d e became => ?_⟩, fun free => ?_⟩
  · rw [← refutes, stable]
    exact none e he
  · exact ⟨fun this => became.1 ((decides ..).mpr this),
      fun other => became.2 ((refutes ..).mpr other)⟩
  · exact idle (List.countP_eq_zero.mpr fun d hd => by simpa using free d hd)

/-- **All imports of the kind are rewritten in all modules but one.** -/
theorem allOf_swept (decides : ∀ p path d, q p path d = true ↔ kind p path d)
    (stable : ∀ p', w.project.SamePaths p' → q p' = q w.project)
    (away : ∀ path, RewritesAway files unplaced (q w.project path) t)
    (ordered : w.project.Ordered)
    (errorFree : ∀ f ∈ w.project.files, files f ∧ f.read = .ok (some f.outlineD))
    (becoming : ∀ f ∈ w.project.files, ∀ d ∈ f.outlineD.imports, kind w.project f.path d →
      ∀ new e, t d = some new → unplaced e = new.normal → becomes d e) (target : String) :
    ∃ touched w', ((w.project.files.filter (·.path ≠ target)).filterMapM fun f =>
        Attempt.rewrite (allOf q t f)).run w = (.ok touched, w') ∧
      Swept kind becomes target w touched w' := by
  have succeeds : ∀ f ∈ w.project.files, (allOf q t).Succeeds w.project f := fun f hf => by
    obtain ⟨l, language⟩ := language_of_outline (outline_of_read (errorFree f hf).2)
    exact allOf_succeeds language
  have own : ∀ f ∈ w.project.files,
      (if f.path = target then f else ((allOf q t).result w.project f).1).path = f.path :=
    fun f hf => (succeeds f hf).path_except target
  have becomes : ∀ f ∈ w.project.files, ∀ p', w.project.SamePaths p' →
      ((allOf q t).result w.project f).2 =
        (f.outlineD.imports.countP fun d => kind w.project f.path d) ∧
      AllRewritten (kind w.project f.path) (kind p' f.path) becomes f.outlineD f
        ((allOf q t).result w.project f).1 := by
    intro f hf p' same
    obtain ⟨g, run, rewritten⟩ := allOf_eq_ok decides (stable p' same) (away f.path)
      (becoming f hf) (errorFree f hf).1 (errorFree f hf).2
    rw [result_eq run]
    exact ⟨rfl, rewritten⟩
  have unchanged : ∀ f p', w.project.SamePaths p' → allOf q t f p' = allOf q t f w.project :=
    fun f p' same => allOf_stable (stable p' same) f
  have run := Attempt.others_swept unchanged ordered target fun f hf _ => succeeds f hf
  refine ⟨_, _, run, ?_, ordered.mapFiles own, .mapFiles own, ?_, rfl, fun path => ?_⟩
  · rw [Project.mapFiles, List.forall₂_map_right_iff, List.forall₂_same]
    intro f hf
    by_cases here : f.path = target
    · rw [if_pos here, if_pos here]
    · rw [if_neg here, if_neg here]
      exact (becomes f hf _ (.mapFiles own)).2
  · have counts : (w.project.files.filter (·.path ≠ target)).map
          (fun f => ((allOf q t).result w.project f).2) =
        (w.project.files.filter (·.path ≠ target)).map fun f =>
          f.outlineD.imports.countP fun d => kind w.project f.path d :=
      List.map_congr_left fun f hf => (becomes f (List.mem_filter.mp hf).1 _ (.refl _)).1
    dsimp only
    rw [counts]
  · have some {f : SourceFile} (hf : f ∈ w.project.files) :
        ((allOf q t).result w.project f).2 ≠ 0 ↔
          ∃ d ∈ f.outlineD.imports, kind w.project f.path d := by
      rw [(becomes f hf _ (.refl _)).1, ← Nat.pos_iff_ne_zero, List.countP_pos_iff]
      simp only [decide_eq_true_eq]
    simp only [List.mem_map, List.mem_filter, decide_eq_true_eq]
    constructor
    · rintro ⟨f, ⟨⟨hf, apart⟩, rewritten⟩, rfl⟩
      exact ⟨f, hf, rfl, apart, (some hf).mp rewritten⟩
    · rintro ⟨f, hf, rfl, apart, there⟩
      exact ⟨f, ⟨⟨hf, apart⟩, (some hf).mpr there⟩, rfl⟩

end Sweep

end ModuleRepair
