import Mathlib.Logic.Relation
import ModuleRepair.Proofs.Project.Order

/-!
# What passes do to the modules of a project

A pass changes modules one after the other, each of them step by step. `Evolves` says that every
module of a project has gone through changes of one kind; the rules below put a pass together.
-/
namespace ModuleRepair

open ModuleRepair.Script Relation

/-- Every module has gone through changes of a kind, and none has come or gone. -/
structure Project.Evolves (change : SourceFile → SourceFile → Prop) (p p' : Project) : Prop where
  ordered : p'.Ordered
  root_eq : p'.root = p.root
  modules : ∀ path, Option.Rel (ReflTransGen change) (p.find? path) (p'.find? path)

variable {change : SourceFile → SourceFile → Prop}

namespace Project.Evolves

variable {p p' p'' : Project} {f f' : SourceFile}

theorem refl (h : p.Ordered) : p.Evolves change p where
  ordered := h
  root_eq := rfl
  modules path := by
    cases p.find? path with
    | none => exact .none
    | some f => exact .some .refl

theorem trans (h : p.Evolves change p') (h' : p'.Evolves change p'') : p.Evolves change p'' where
  ordered := h'.ordered
  root_eq := h'.root_eq.trans h.root_eq
  modules path := by
    have first := h.modules path
    have second := h'.modules path
    generalize p.find? path = f at first ⊢
    generalize p'.find? path = f' at first second
    generalize p''.find? path = f'' at second ⊢
    cases first with
    | none =>
      cases second
      exact .none
    | some first =>
      cases second with
      | some second => exact .some (first.trans second)

theorem put (h : p.Ordered) (found : p.find? f.path = some f) (path_eq : f'.path = f.path)
    (changes : ReflTransGen change f f') : p.Evolves change (p.put f') where
  ordered := h.put f'
  root_eq := rfl
  modules path := by
    by_cases here : path = f'.path
    · rw [here, find?_put, path_eq, found]
      exact .some changes
    · rw [find?_put_of_ne p here]
      exact (refl h).modules path

theorem mono {change' : SourceFile → SourceFile → Prop} (h : p.Evolves change p')
    (weaker : ∀ f f', change f f' → change' f f') : p.Evolves change' p' where
  ordered := h.ordered
  root_eq := h.root_eq
  modules path := by
    have here := h.modules path
    generalize p.find? path = f at here ⊢
    generalize p'.find? path = f' at here ⊢
    cases here with
    | none => exact .none
    | some changes => exact .some (ReflTransGen.mono weaker _ _ changes)

end Project.Evolves

/-! ## Steps -/

namespace Step

variable {α β : Type}

/-- Whatever project the step works on, its modules go through changes of a kind. -/
def Evolves (change : SourceFile → SourceFile → Prop) (step : Step α) : Prop :=
  ∀ w : Work, w.project.Ordered → w.project.Evolves change (step.run w).2.project

theorem Evolves.of_same {step : Step α} (h : ∀ w, (step.run w).2.project = w.project) :
    step.Evolves change := by
  intro w ordered
  rw [h]
  exact .refl ordered

theorem Evolves.pure (a : α) : Evolves change (Pure.pure a : Step α) :=
  of_same fun _ => rfl

theorem Evolves.bind {step : Step α} {next : α → Step β} (h : step.Evolves change)
    (hn : ∀ a, (next a).Evolves change) : (step >>= next).Evolves change := by
  intro w ordered
  have first := h w ordered
  rw [StateT.run_bind]
  exact first.trans (hn _ _ first.ordered)

theorem Evolves.mapM {step : α → Step β} (h : ∀ a, (step a).Evolves change) (as : List α) :
    (as.mapM step).Evolves change := by
  induction as with
  | nil => exact .pure []
  | cons a as ih =>
    rw [List.mapM_cons]
    exact (h a).bind fun b => ih.bind fun bs => .pure (b :: bs)

theorem Evolves.filterMapM {step : α → Step (Option β)} (h : ∀ a, (step a).Evolves change)
    (as : List α) : (as.filterMapM step).Evolves change := by
  induction as with
  | nil => exact .pure []
  | cons a as ih =>
    intro w ordered
    rw [Step.filterMapM_cons_run]
    have first := h a w ordered
    exact first.trans (ih _ first.ordered)

theorem Evolves.orReport {attempt : Attempt α} (h : Evolves change attempt.run) (otherwise : α)
    (notice : LanguageError → Notice) : (attempt.orReport otherwise notice).Evolves change := by
  intro w ordered
  rw [Attempt.orReport_project]
  exact h w ordered

end Step

/-! ## Attempts at modules -/

namespace Attempt

variable {β : Type}

/-- An attempt at a module changes nothing else, and the module by changes of a kind. -/
def Revises (change : SourceFile → SourceFile → Prop) (act : SourceFile → Attempt β) : Prop :=
  ∀ f w, ((act f).run w).2.project = w.project ∨
    ∃ f', ReflTransGen change f f' ∧ f'.path = f.path ∧
      ((act f).run w).2.project = w.project.put f'

/-- One module after the other. Each is given as it is in the project, and the others stay so until
their turn comes. -/
theorem Revises.filterMapM {act : SourceFile → Attempt (Option β)} (h : Revises change act)
    {files : List SourceFile} {w : Work} (ordered : w.project.Ordered)
    (nodup : (files.map (·.path)).Nodup)
    (current : ∀ f ∈ files, w.project.find? f.path = some f) :
    w.project.Evolves change ((files.filterMapM act).run w).2.project ∧
      ∀ path ∉ files.map (·.path),
        ((files.filterMapM act).run w).2.project.find? path = w.project.find? path := by
  -- What carries the induction is that modules behind are untouched, and so still current.
  induction files generalizing w with
  | nil => exact ⟨.refl ordered, fun _ _ => rfl⟩
  | cons f files ih =>
    obtain ⟨fresh, nodup⟩ := List.nodup_cons.mp nodup
    have here : w.project.Evolves change ((act f).run w).2.project ∧
        ∀ path ≠ f.path, ((act f).run w).2.project.find? path = w.project.find? path := by
      rcases h f w with same | ⟨f', changes, path_eq, put⟩
      · rw [same]
        exact ⟨.refl ordered, fun _ _ => rfl⟩
      · rw [put]
        refine ⟨.put ordered (current f List.mem_cons_self) path_eq changes, fun path ne => ?_⟩
        exact Project.find?_put_of_ne _ (path_eq ▸ ne)
    rw [filterMapM_cons_run]
    generalize (act f).run w = first at here ⊢
    rcases first with ⟨e | b, w'⟩
    · exact ⟨here.1, fun path other => here.2 path (List.ne_of_not_mem_cons other)⟩
    · have later : ∀ g ∈ files, w'.project.find? g.path = some g := by
        intro g hg
        have other : g.path ≠ f.path := fun same => fresh (List.mem_map.mpr ⟨g, hg, same⟩)
        exact (here.2 g.path other).trans (current g (List.mem_cons_of_mem f hg))
      obtain ⟨evolves, others⟩ := ih here.1.ordered nodup later
      have both : w.project.Evolves change ((files.filterMapM act).run w').2.project ∧
          ∀ path ∉ (f :: files).map (·.path),
            ((files.filterMapM act).run w').2.project.find? path = w.project.find? path := by
        refine ⟨here.1.trans evolves, fun path other => ?_⟩
        rw [others path (List.not_mem_of_not_mem_cons other),
          here.2 path (List.ne_of_not_mem_cons other)]
      dsimp only
      generalize (files.filterMapM act).run w' = rest at both ⊢
      rcases rest with ⟨e | bs, w''⟩ <;> exact both

end Attempt

end ModuleRepair
