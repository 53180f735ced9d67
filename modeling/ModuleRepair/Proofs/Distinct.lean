import Mathlib.Data.List.Nodup

/-!
# First occurrences
-/
namespace ModuleRepair

variable {α : Type}

theorem eraseDupsBy_sublist (r : α → α → Bool) (all : List α) :
    (all.eraseDupsBy r).Sublist all := by
  match all with
  | [] => simp
  | a :: all =>
    rw [List.eraseDupsBy_cons]
    exact ((eraseDupsBy_sublist r _).trans List.filter_sublist).cons_cons a
termination_by all.length
decreasing_by exact Nat.lt_succ_of_le (List.length_filter_le ..)

variable [BEq α]

/-- Of the entries with one key the first is kept. -/
theorem map_eraseDupsBy {β : Type} (key : β → α) (all : List β) :
    (all.eraseDupsBy fun a b => key a == key b).map key = (all.map key).eraseDups := by
  match all with
  | [] => rfl
  | a :: all =>
    have rest := map_eraseDupsBy key (all.filter fun b => !key b == key a)
    rw [List.eraseDupsBy_cons, List.map_cons, List.map_cons, List.eraseDups_cons, List.filter_map]
    simp only [Bool.decide_eq_false] at rest ⊢
    exact congrArg (key a :: ·) rest
termination_by all.length
decreasing_by exact Nat.lt_succ_of_le (List.length_filter_le ..)

variable [LawfulBEq α]

theorem filter_eraseDups (p : α → Bool) (all : List α) :
    (all.filter p).eraseDups = all.eraseDups.filter p := by
  match all with
  | [] => rfl
  | a :: all =>
    have rest := filter_eraseDups p (all.filter fun b => !b == a)
    rw [List.eraseDups_cons, List.filter_cons, List.filter_cons]
    split
    · rw [List.eraseDups_cons, List.filter_filter, ← rest, List.filter_filter]
      congr 2
      exact List.filter_congr fun _ _ => Bool.and_comm ..
    · next no =>
      rw [← rest, List.filter_filter]
      congr 1
      refine List.filter_congr fun b _ => ?_
      cases hb : p b with
      | false => rfl
      | true => simpa [hb] using fun same : b = a => no (same ▸ hb)
termination_by all.length
decreasing_by exact Nat.lt_succ_of_le (List.length_filter_le ..)

theorem nodup_eraseDups (all : List α) : all.eraseDups.Nodup := by
  match all with
  | [] => simp
  | a :: all =>
    rw [List.eraseDups_cons, List.nodup_cons]
    refine ⟨?_, nodup_eraseDups _⟩
    simp
termination_by all.length
decreasing_by exact Nat.lt_succ_of_le (List.length_filter_le ..)

theorem eraseDups_of_nodup {all : List α} (h : all.Nodup) : all.eraseDups = all := by
  induction all with
  | nil => rfl
  | cons a all ih =>
    rw [List.nodup_cons] at h
    rw [List.eraseDups_cons, List.filter_eq_self.mpr, ih h.2]
    intro b hb
    simpa using fun same : b = a => h.1 (same ▸ hb)

theorem length_eraseDups_eq_iff {all : List α} :
    all.eraseDups.length = all.length ↔ all.Nodup := by
  constructor
  · intro same
    rw [← (eraseDupsBy_sublist _ all).eq_of_length same]
    exact nodup_eraseDups all
  · intro once
    rw [eraseDups_of_nodup once]

theorem eraseDups_concat_of_mem {all : List α} {a : α} (h : a ∈ all) :
    (all ++ [a]).eraseDups = all.eraseDups := by
  have nothing : [a].removeAll all = [] := by simp [List.removeAll, h]
  rw [List.eraseDups_append, nothing, List.eraseDups_nil, List.append_nil]

theorem eraseDups_concat_of_not_mem {all : List α} {a : α} (h : a ∉ all) :
    (all ++ [a]).eraseDups = all.eraseDups ++ [a] := by
  have new : [a].removeAll all = [a] := by simp [List.removeAll, h]
  rw [List.eraseDups_append, new]
  rfl

end ModuleRepair
