import ModuleRepair.Repair.Work

/-!
# Changing the work

A module that is put into a project is found there, and the others are as they were. A failure is
reported and undoes nothing.
-/
namespace ModuleRepair

open ModuleRepair.Script

namespace Project

theorem find?_put (p : Project) (f : SourceFile) : (p.put f).find? f.path = some f := by
  change (Project.insert f p.files).find? _ = _
  induction p.files with
  | nil => simp [Project.insert]
  | cons g rest ih =>
    simp only [Project.insert]
    split
    · simp
    · next other =>
      split
      · simp
      · simpa [other] using ih

theorem find?_put_of_ne (p : Project) {f : SourceFile} {path : String} (h : path ≠ f.path) :
    (p.put f).find? path = p.find? path := by
  change (Project.insert f p.files).find? _ = p.files.find? _
  induction p.files with
  | nil => simp [Project.insert, h.symm]
  | cons g rest ih =>
    simp only [Project.insert]
    split
    · next same => simp [same, h.symm]
    · split
      · simp [List.find?_cons, h.symm]
      · simp only [List.find?_cons]
        split
        · rfl
        · exact ih

end Project

/-- Of steps that follow each other each works on what the one before has left. -/
theorem Step.filterMapM_cons {α β : Type} (step : α → Step (Option β)) (a : α) (as : List α)
    (w : Work) : ((a :: as).filterMapM step).run w =
      (((step a).run w).1.toList ++ ((as.filterMapM step).run ((step a).run w).2).1,
        ((as.filterMapM step).run ((step a).run w).2).2) := by
  rw [List.filterMapM_cons, StateT.run_bind]
  change ((match ((step a).run w).1 with | none => _ | some b => _) : Step (List β)).run
    ((step a).run w).2 = _
  cases ((step a).run w).1 <;> rfl

theorem Step.mapM_cons {α β : Type} (step : α → Step β) (a : α) (as : List α) (w : Work) :
    ((a :: as).mapM step).run w =
      (((step a).run w).1 :: ((as.mapM step).run ((step a).run w).2).1,
        ((as.mapM step).run ((step a).run w).2).2) := by
  rw [List.mapM_cons]
  rfl

theorem Step.filterMapM_cons_run {α β : Type} (step : α → Step (Option β)) (a : α) (as : List α)
    (w : Work) : (((a :: as).filterMapM step).run w).2 =
      ((as.filterMapM step).run ((step a).run w).2).2 := by
  rw [filterMapM_cons]

/-- A step that looks at the work first. -/
theorem Step.run_get_bind {α : Type} (next : Work → Step α) (w : Work) :
    (get >>= next).run w = (next w).run w := rfl

theorem Attempt.run_get_bind {α : Type} (next : Work → Attempt α) (w : Work) :
    (get >>= next).run w = (next w).run w := rfl

theorem Attempt.orReport_run {α : Type} (attempt : Attempt α) (otherwise : α)
    (notice : LanguageError → Notice) (w : Work) :
    (attempt.orReport otherwise notice).run w =
      match attempt.run w with
      | (.ok value, w) => (value, w)
      | (.error e, w) => (otherwise, { w with notices := w.notices ++ [notice e] }) := by
  simp only [Attempt.orReport, bind, StateT.bind, StateT.run]
  rcases attempt.run w with ⟨e | value, w⟩ <;> rfl

/-- A report of a failure is all that is added. -/
theorem Attempt.orReport_project {α : Type} (attempt : Attempt α) (otherwise : α)
    (notice : LanguageError → Notice) (w : Work) :
    ((attempt.orReport otherwise notice).run w).2.project = (attempt.run w).2.project := by
  rw [orReport_run]
  rcases attempt.run w with ⟨e | value, w'⟩ <;> rfl

theorem Attempt.of_run {α : Type} (result : Except LanguageError α) (w : Work) :
    (Attempt.of result).run w = (result, w) := rfl

theorem Attempt.run_bind {α β : Type} (attempt : Attempt α) (next : α → Attempt β) (w : Work) :
    (attempt >>= next).run w =
      match attempt.run w with
      | (.ok a, w) => (next a).run w
      | (.error e, w) => (.error e, w) := by
  simp only [ExceptT.run, bind, ExceptT.bind, ExceptT.mk, StateT.bind]
  rcases attempt w with ⟨e | a, w⟩ <;> rfl

/-- Attempts that follow each other stop at the first failure. -/
theorem Attempt.filterMapM_cons_run {α β : Type} (act : α → Attempt (Option β)) (a : α)
    (as : List α) (w : Work) : ((a :: as).filterMapM act).run w =
      match (act a).run w with
      | (.error e, w) => (.error e, w)
      | (.ok b, w) =>
        match (as.filterMapM act).run w with
        | (.error e, w) => (.error e, w)
        | (.ok bs, w) => (.ok (b.toList ++ bs), w) := by
  rw [List.filterMapM_cons, Attempt.run_bind]
  rcases (act a).run w with ⟨e | b, w⟩
  · rfl
  · cases b with
    | none =>
      dsimp only
      rcases (as.filterMapM act).run w with ⟨e | bs, w⟩ <;> rfl
    | some b =>
      dsimp only
      rw [Attempt.run_bind]
      rcases (as.filterMapM act).run w with ⟨e | bs, w⟩ <;> rfl

theorem Attempt.filterMapM_eq_ok {α β : Type} {act : α → Attempt (Option β)} {as : List α}
    (h : ∀ a ∈ as, ∀ w, ∃ b w', (act a).run w = (.ok b, w')) (w : Work) :
    ∃ bs w', (as.filterMapM act).run w = (.ok bs, w') := by
  induction as generalizing w with
  | nil => exact ⟨[], w, rfl⟩
  | cons a as ih =>
    obtain ⟨b, w', first⟩ := h a List.mem_cons_self w
    obtain ⟨bs, w'', rest⟩ := ih (fun a' ha => h a' (List.mem_cons_of_mem a ha)) w'
    exact ⟨_, w'', by rw [filterMapM_cons_run, first]; simp only [rest]; rfl⟩

end ModuleRepair
