import Mathlib.Data.List.DropRight
import ModuleRepair.Export.Surface

/-!
# The history of a surface

What a surface holds follows from the entries that were offered to it since it was last cleared: the
first one of each name, as far as there is room. Offers of all other names are counted
(`Surface.run_eq_ofLog`).
-/
namespace ModuleRepair

/-- The first elements of a list, as many as a limit allows. -/
def firstOf {α : Type} (limit : Option Nat) (xs : List α) : List α :=
  match limit with
  | none => xs
  | some n => xs.take n

theorem prefix_firstOf {α : Type} (limit : Option Nat) (xs : List α) : firstOf limit xs <+: xs := by
  cases limit with
  | none => exact List.prefix_rfl
  | some n => exact List.take_prefix n xs

namespace ExportEntry

/-- The first entry of each name. -/
def firstByName : List ExportEntry → List ExportEntry
  | [] => []
  | e :: rest => e :: (firstByName rest).filter (·.name ≠ e.name)

theorem mem_names_firstByName {log : List ExportEntry} {name : String} :
    name ∈ (firstByName log).map (·.name) ↔ name ∈ log.map (·.name) := by
  induction log with
  | nil => rfl
  | cons e log ih =>
    by_cases same : name = e.name
    · simp [firstByName, same]
    · have others : name ∈ ((firstByName log).filter (·.name ≠ e.name)).map (·.name) ↔
          name ∈ (firstByName log).map (·.name) := by
        simp only [List.mem_map, List.mem_filter, decide_eq_true_eq]
        constructor
        · rintro ⟨d, ⟨hd, -⟩, rfl⟩
          exact ⟨d, hd, rfl⟩
        · rintro ⟨d, hd, rfl⟩
          exact ⟨d, ⟨hd, same⟩, rfl⟩
      simp only [firstByName, List.map_cons, List.mem_cons, same, false_or, others, ih]

/-- Behind other entries, those of new names are left. -/
theorem firstByName_append (log more : List ExportEntry) :
    firstByName (log ++ more) =
      firstByName log ++ (firstByName more).filter (·.name ∉ log.map (·.name)) := by
  induction log with
  | nil => simp [firstByName]
  | cons e log ih =>
    have apart : (fun d : ExportEntry => decide (d.name ≠ e.name) &&
        decide (d.name ∉ log.map (·.name))) =
        fun d => decide (d.name ∉ (e :: log).map (·.name)) := by
      funext d
      simp
    rw [List.cons_append, firstByName, ih, List.filter_append, List.filter_filter, apart]
    rfl

theorem firstByName_concat (log : List ExportEntry) (e : ExportEntry) :
    firstByName (log ++ [e]) =
      if e.name ∈ log.map (·.name) then firstByName log else firstByName log ++ [e] := by
  rw [firstByName_append]
  split <;> simp_all [firstByName]

end ExportEntry

namespace Surface

open ExportEntry

/-- The surface that is left when entries were offered. -/
def ofLog (limit : Option Nat) (log : List ExportEntry) : Surface where
  limit := limit.map Int.ofNat
  entries := firstOf limit (firstByName log)
  dropped := (log.filter (·.name ∉ (firstOf limit (firstByName log)).map (·.name))).length

variable {limit : Option Nat} {log : List ExportEntry} {e : ExportEntry} {s : Surface}

theorem contains_iff {name : String} : s.contains name = true ↔ name ∈ s.entries.map (·.name) := by
  simp [contains]

/-- Where there is room, nothing was left out. -/
theorem firstOf_of_not_isFull (room : (ofLog limit log).isFull = false) :
    firstOf limit (firstByName log) = firstByName log ∧
      firstOf limit (firstByName log ++ [e]) = firstByName log ++ [e] := by
  cases limit with
  | none => exact ⟨rfl, rfl⟩
  | some n =>
    have short : (firstByName log).length < n := by
      simp only [isFull, ofLog, firstOf, Option.map_some, decide_eq_false_iff_not,
        List.length_take] at room
      change ¬(n : Int) ≤ _ at room
      omega
    refine ⟨List.take_of_length_le (by omega), List.take_of_length_le ?_⟩
    simp only [List.length_append, List.length_singleton]
    omega

/-- Where there is no room, more entries change nothing. -/
theorem firstOf_of_isFull (full : (ofLog limit log).isFull = true) (more : List ExportEntry) :
    firstOf limit (firstByName log ++ more) = firstOf limit (firstByName log) := by
  cases limit with
  | none => cases full
  | some n =>
    have long : n ≤ (firstByName log).length := by
      simp only [isFull, ofLog, firstOf, Option.map_some, decide_eq_true_eq,
        List.length_take] at full
      change (n : Int) ≤ _ at full
      omega
    exact List.take_append_of_le_length long

/-- One offer more. -/
theorem ofLog_add (limit : Option Nat) (log : List ExportEntry) (e : ExportEntry) :
    ((ofLog limit log).add e).2 = ofLog limit (log ++ [e]) := by
  have known (there : e.name ∈ (firstOf limit (firstByName log)).map (·.name)) :
      e.name ∈ log.map (·.name) :=
    mem_names_firstByName.mp (((prefix_firstOf limit _).sublist.map _).subset there)
  unfold add
  split
  · next there =>
    have there : e.name ∈ (firstOf limit (firstByName log)).map (·.name) := contains_iff.mp there
    simp only [ofLog, firstByName_concat, known there, if_true, List.filter_append,
      List.filter_cons, there, not_true, decide_false, Bool.false_eq_true, if_false,
      List.filter_nil, List.append_nil]
  · next new =>
    have new : e.name ∉ (firstOf limit (firstByName log)).map (·.name) := fun there =>
      new (contains_iff.mpr there)
    split
    · next full =>
      have kept : firstOf limit (firstByName (log ++ [e])) = firstOf limit (firstByName log) := by
        rw [firstByName_append]
        exact firstOf_of_isFull full _
      simp only [ofLog, kept, List.filter_append, List.filter_cons, new, not_false_eq_true,
        decide_true, if_true, List.filter_nil, List.length_append, List.length_singleton]
    · next room =>
      obtain ⟨whole, longer⟩ := firstOf_of_not_isFull (e := e) (Bool.eq_false_iff.mpr room)
      rw [whole] at new
      have fresh : e.name ∉ log.map (·.name) := fun there => new (mem_names_firstByName.mpr there)
      -- Everything offered so far is held, so that nothing was dropped.
      have held (log' : List ExportEntry) :
          log'.filter (·.name ∉ (firstByName log').map (·.name)) = [] :=
        List.filter_eq_nil_iff.mpr fun d hd => by
          simpa using mem_names_firstByName.mpr (List.mem_map_of_mem (f := (·.name)) hd)
      have after := held (log ++ [e])
      rw [firstByName_concat, if_neg fresh] at after
      simp only [ofLog, firstByName_concat, fresh, if_false, whole, longer, held, after]

/-! ## Operations -/

inductive Operation where
  | add (e : ExportEntry)
  | get (name : String)
  | contains (name : String)
  | clear
  deriving DecidableEq, Repr

/-- What an operation answers. -/
inductive Answer where
  | added (retained : Bool)
  | found (e : Option ExportEntry)
  | held (there : Bool)
  | cleared
  deriving DecidableEq, Repr

def perform (s : Surface) : Operation → Answer × Surface
  | .add e => (.added (s.add e).1, (s.add e).2)
  | .get name => (.found (s.get? name), s)
  | .contains name => (.held (s.contains name), s)
  | .clear => (.cleared, s.clear)

/-- What a history of operations makes of an empty surface. -/
def run (limit : Option Nat) (history : List Operation) : Surface :=
  history.foldl (fun s operation => (s.perform operation).2) { limit := limit.map Int.ofNat }

/-- The entry that an operation offers. -/
def Operation.added? : Operation → Option ExportEntry
  | .add e => some e
  | _ => none

/-- The entries that were offered since the surface was last cleared. -/
def offered (history : List Operation) : List ExportEntry :=
  (history.rtakeWhile (· ≠ .clear)).filterMap (·.added?)

theorem offered_concat (history : List Operation) (operation : Operation) :
    offered (history ++ [operation]) =
      if operation = .clear then [] else offered history ++ operation.added?.toList := by
  by_cases clear : operation = .clear
  · rw [offered, List.rtakeWhile_concat_neg _ _ _ (by simp [clear]), if_pos clear]
    rfl
  · rw [offered, List.rtakeWhile_concat_pos _ _ _ (by simp [clear]), if_neg clear,
      List.filterMap_append]
    cases operation <;> rfl

theorem run_concat (limit : Option Nat) (history : List Operation) (operation : Operation) :
    run limit (history ++ [operation]) = ((run limit history).perform operation).2 := by
  simp [run]

/-- Nothing but the log decides. -/
theorem run_eq_ofLog (limit : Option Nat) (history : List Operation) :
    run limit history = ofLog limit (offered history) := by
  have empty : ofLog limit [] = { limit := limit.map Int.ofNat } := by
    cases limit <;> simp [ofLog, firstOf, firstByName]
  induction history using List.reverseRecOn with
  | nil => exact empty.symm
  | append_singleton history operation ih =>
    rw [run_concat, ih, offered_concat]
    cases operation with
    | add e => exact ofLog_add limit (offered history) e
    | get name => simp [perform, Operation.added?]
    | contains name => simp [perform, Operation.added?]
    | clear =>
      rw [if_pos rfl, empty]
      rfl

/-- An entry is added exactly when this is what the answer says. -/
theorem add_entries (s : Surface) (e : ExportEntry) :
    (s.add e).2.entries = if (s.add e).1 then s.entries ++ [e] else s.entries := by
  unfold add
  split
  · rfl
  · split <;> rfl

/-- Whatever its history, a surface holds the first entries of distinct names since it was last
cleared, within its limit; it says of each entry whether it takes it, and has counted the offers of
names that it does not hold. -/
theorem history_determines (limit : Option Nat) (history : List Operation) :
    let s := run limit history
    s.entries = firstOf limit (firstByName (offered history)) ∧
      (∀ n ∈ limit, s.entries.length ≤ n) ∧
      s.dropped = ((offered history).filter (·.name ∉ s.entries.map (·.name))).length ∧
      ∀ e, ∃ retained, (s.perform (.add e)).1 = .added retained ∧
        (run limit (history ++ [.add e])).entries =
          if retained then s.entries ++ [e] else s.entries := by
  intro s
  have log : s = ofLog limit (offered history) := run_eq_ofLog limit history
  refine ⟨by rw [log]; rfl, fun n bound => ?_, by rw [log]; rfl, fun e => ?_⟩
  · obtain rfl : limit = some n := bound
    rw [log]
    exact List.length_take_le n _
  · refine ⟨(s.add e).1, rfl, ?_⟩
    rw [run_concat]
    exact s.add_entries e

end Surface

end ModuleRepair
