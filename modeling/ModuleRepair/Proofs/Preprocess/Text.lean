import Mathlib.Logic.Function.Iterate
import ModuleRepair.Proofs.Preprocess.Directive
import ModuleRepair.Proofs.Preprocess.Fences

/-!
# What preprocessing makes of a text

Preprocessing cuts a text down to the lines inside of its fences and puts at most one line in, the
directive (`text_reworks`). The directive is no fence and is recognized again, so that with every
second fence at most one more run is needed until nothing changes (`text_settles`).
-/
namespace ModuleRepair.Preprocess

open ModuleRepair.Text

/-- Whether kept lines call for the directive: something needs it, and no line holds it. -/
def Needs (modules : List String) (lines : List Line) : Prop :=
  Triggers modules (unlines lines) ∧ ∀ line ∈ lines, ¬IsDirectiveLine line

/-- The lines with the directive put in: at the front, or behind a first line that names an
interpreter. -/
def withDirective (directive : Line) (lines : List Line) : List Line :=
  lines.insertIdx (if lines.head?.any ("#!".toList.isPrefixOf ·) then 1 else 0) directive

theorem insertLine_eq (directive : Line) (lines : List Line) :
    insertLine directive lines = withDirective directive lines := by
  cases lines with
  | nil => rfl
  | cons first rest =>
    cases interpreter : "#!".toList.isPrefixOf first <;>
      simp only [insertLine, withDirective, List.head?_cons, Option.any_some, interpreter] <;> rfl

theorem withDirective_perm (directive : Line) (lines : List Line) :
    (withDirective directive lines).Perm (directive :: lines) := by
  rw [← insertLine_eq]
  cases lines with
  | nil => exact .refl _
  | cons first rest =>
    rw [insertLine]
    split
    · exact .swap ..
    · exact .refl _

/-! ## One run -/

variable {rules : Rules} {s : List Char}

theorem getD_stripFences? (s : List Char) :
    (stripFences? s).getD s = unlines (kept (linesOf s)) := by
  unfold stripFences? kept
  cases fenced? (linesOf s) with
  | none => exact (unlines_linesOf s).symm
  | some body => rfl

theorem isSome_stripFences?_iff : (stripFences? s).isSome = true ↔ 2 ≤ fences s := by
  rw [stripFences?, Option.isSome_map, isSome_fenced?_iff, fences]

theorem not_mem_of_mem_kept {l : Line} (h : l ∈ kept (linesOf s)) : '\n' ∉ l :=
  not_mem_of_mem_linesOf ((keeps_kept _).sublist.mem h)

/-- Nothing is called for where nothing is kept. -/
theorem not_needs_nil (modules : List String) : ¬Needs modules [] := by
  rintro ⟨triggers, -⟩
  have none : isForClient modules [] = false := by
    simp [isForClient, usesWord, mentionsModule]
  rw [← isForClient_iff] at triggers
  exact absurd triggers (by simp [unlines, join_nil, none])

theorem needsDirective_kept_iff (modules : List String) (s : List Char) :
    needsDirective modules (unlines (kept (linesOf s))) = true ↔
      Needs modules (kept (linesOf s)) := by
  rw [needsDirective_iff, Needs, and_congr_right_iff]
  intro triggers
  have some : kept (linesOf s) ≠ [] := by
    intro none
    rw [none] at triggers
    exact not_needs_nil modules ⟨triggers, nofun⟩
  rw [linesOf_unlines some fun l hl => not_mem_of_mem_kept hl]

/-- The lines that a run leaves. -/
def linesAfter (rules : Rules) (s : List Char) : List Line :=
  if needsDirective rules.clientModules (unlines (kept (linesOf s))) then
    withDirective rules.directive.toList (kept (linesOf s))
  else kept (linesOf s)

theorem linesAfter_of_needs (needs : Needs rules.clientModules (kept (linesOf s))) :
    linesAfter rules s = withDirective rules.directive.toList (kept (linesOf s)) :=
  if_pos ((needsDirective_kept_iff _ s).mpr needs)

theorem linesAfter_of_not (complete : ¬Needs rules.clientModules (kept (linesOf s))) :
    linesAfter rules s = kept (linesOf s) :=
  if_neg (mt (needsDirective_kept_iff _ s).mp complete)

theorem text_fst (rules : Rules) (s : List Char) :
    (text rules s).1 = unlines (linesAfter rules s) := by
  simp only [text, getD_stripFences?]
  by_cases needs : Needs rules.clientModules (kept (linesOf s))
  · have some : kept (linesOf s) ≠ [] := fun none => not_needs_nil _ (none ▸ needs)
    rw [if_pos ((needsDirective_kept_iff _ s).mpr needs), linesAfter_of_needs needs, addDirective,
      linesOf_unlines some fun l hl => not_mem_of_mem_kept hl, insertLine_eq]
  · rw [if_neg (mt (needsDirective_kept_iff _ s).mp needs), linesAfter_of_not needs]

theorem stripFences_mem_text_iff : .stripFences ∈ (text rules s).2 ↔ 2 ≤ fences s := by
  rw [← isSome_stripFences?_iff]
  simp only [text]
  split <;> split <;> simp_all

theorem clientDirective_mem_text_iff :
    .clientDirective ∈ (text rules s).2 ↔ Needs rules.clientModules (kept (linesOf s)) := by
  rw [← needsDirective_kept_iff]
  simp only [text, getD_stripFences?]
  split <;> split <;> simp_all

theorem steps_eq_nil_iff : (text rules s).2 = [] ↔
    fences s < 2 ∧ ¬Needs rules.clientModules (kept (linesOf s)) := by
  have stripped : .stripFences ∈ (text rules s).2 ↔ 2 ≤ fences s := stripFences_mem_text_iff
  rw [← Nat.not_le, ← stripped, ← clientDirective_mem_text_iff]
  constructor
  · intro none
    simp [none]
  · rintro ⟨unfenced, complete⟩
    refine List.eq_nil_iff_forall_not_mem.mpr fun change there => ?_
    cases change with
    | stripFences => exact unfenced there
    | clientDirective => exact complete there

theorem kept_eq_self (few : fences s < 2) : kept (linesOf s) = linesOf s := by
  rcases fenced?_spec (linesOf s) with ⟨none, -⟩ | ⟨body, -, -, enough⟩
  · simp [kept, none]
  · exact absurd few (Nat.not_lt.mpr enough)

/-- A run that applies no step leaves the text. -/
theorem text_of_steps_nil (none : (text rules s).2 = []) : (text rules s).1 = s := by
  obtain ⟨few, complete⟩ := steps_eq_nil_iff.mp none
  rw [text_fst, linesAfter_of_not complete, kept_eq_self few, unlines_linesOf]

/-- A run leaves lines that it can be told from, but for an empty text. -/
theorem linesOf_text (oneLine : '\n' ∉ rules.directive.toList) (some : linesAfter rules s ≠ []) :
    linesOf (text rules s).1 = linesAfter rules s := by
  rw [text_fst, linesOf_unlines some]
  intro l hl
  unfold linesAfter at hl
  split at hl
  · rcases List.mem_cons.mp ((withDirective_perm _ _).mem_iff.mp hl) with rfl | there
    · exact oneLine
    · exact not_mem_of_mem_kept there
  · exact not_mem_of_mem_kept hl

/-- A run that applies a step leaves another number of lines. -/
theorem text_ne_of_steps (oneLine : '\n' ∉ rules.directive.toList)
    (some : (text rules s).2 ≠ []) : (text rules s).1 ≠ s := by
  intro same
  have length : (linesOf s).length = max 1 (linesAfter rules s).length := by
    cases lines : linesAfter rules s with
    | nil =>
      rw [text_fst, lines] at same
      rw [← same]
      rfl
    | cons first rest =>
      have there : linesAfter rules s ≠ [] := by simp [lines]
      have lines' := linesOf_text oneLine there
      rw [same] at lines'
      rw [lines', lines]
      simp
  by_cases few : fences s < 2
  · have needs : Needs rules.clientModules (kept (linesOf s)) := by
      by_contra complete
      exact some (steps_eq_nil_iff.mpr ⟨few, complete⟩)
    rw [linesAfter_of_needs needs, kept_eq_self few, (withDirective_perm _ _).length_eq] at length
    simp at length
  · have shorter := (keeps_kept (linesOf s)).length_le (Nat.not_lt.mp few)
    by_cases needs : Needs rules.clientModules (kept (linesOf s))
    · rw [linesAfter_of_needs needs, (withDirective_perm _ _).length_eq] at length
      simp only [List.length_cons] at length
      omega
    · rw [linesAfter_of_not needs] at length
      omega

theorem standardDirective_oneLine : '\n' ∉ standardDirective.toList := by decide

/-- The rules where nothing is chosen. -/
def standardRules : Rules := ⟨standardModules, standardDirective⟩

/-- A script with a hook in fences, with prose around them. -/
def fencedHook : List Char :=
  "Here you are:\n\x60\x60\x60ts\n#!/usr/bin/env node\nuseState(0);\n\x60\x60\x60\nDone.".toList

example : text standardRules fencedHook =
    ("#!/usr/bin/env node\n\"use client\";\nuseState(0);".toList,
      [.stripFences, .clientDirective]) := by
  decide +kernel

/-! ## Runs one after the other -/

theorem isDirectiveLine_standard : IsDirectiveLine standardDirective.toList :=
  isDirective_iff.mp (by decide)

/-- With each run two fences go. -/
theorem fences_text (oneLine : '\n' ∉ rules.directive.toList)
    (plain : isFence rules.directive.toList = false) :
    fences (text rules s).1 = if fences s < 2 then fences s else fences s - 2 := by
  have body := (keeps_kept (linesOf s)).countP_isFence
  have lines : (linesAfter rules s).countP isFence = (kept (linesOf s)).countP isFence := by
    unfold linesAfter
    split
    · simp [(withDirective_perm _ _).countP_eq, plain]
    · rfl
  rw [fences, fences, ← body, ← lines]
  cases none : linesAfter rules s with
  | nil =>
    rw [text_fst, none]
    rfl
  | cons first rest =>
    rw [← none, linesOf_text oneLine (by simp [none])]

/-- After a run the directive is there if anything needs it. -/
theorem needsDirective_text (oneLine : '\n' ∉ rules.directive.toList)
    (recognized : IsDirectiveLine rules.directive.toList) :
    needsDirective rules.clientModules (text rules s).1 = false := by
  refine Bool.eq_false_iff.mpr fun needs' => ?_
  by_cases needs : Needs rules.clientModules (kept (linesOf s))
  · have there : rules.directive.toList ∈ linesAfter rules s := by
      rw [linesAfter_of_needs needs, (withDirective_perm _ _).mem_iff]
      exact List.mem_cons_self
    rw [needsDirective_iff, linesOf_text oneLine (List.ne_nil_of_mem there)] at needs'
    exact needs'.2 _ there recognized
  · rw [text_fst, linesAfter_of_not needs, needsDirective_kept_iff] at needs'
    exact needs needs'

/-- Nothing is done to a text with one fence at most that lacks nothing. -/
theorem text_eq_self (few : fences s < 2)
    (complete : needsDirective rules.clientModules s = false) : text rules s = (s, []) := by
  have none : (text rules s).2 = [] := by
    refine steps_eq_nil_iff.mpr ⟨few, fun needs => ?_⟩
    rw [← needsDirective_kept_iff, kept_eq_self few, unlines_linesOf, complete] at needs
    cases needs
  exact Prod.ext (text_of_steps_nil none) none

/-- So many runs leave two fences less each, down to the last one. -/
theorem fences_iterate (oneLine : '\n' ∉ rules.directive.toList)
    (plain : isFence rules.directive.toList = false) (n : Nat) (s : List Char) :
    fences ((fun s => (text rules s).1)^[n] s) =
      if fences s / 2 ≤ n then fences s % 2 else fences s - 2 * n := by
  induction n with
  | zero =>
    rw [Function.iterate_zero_apply]
    split <;> omega
  | succ n ih =>
    rw [Function.iterate_succ_apply', fences_text oneLine plain, ih]
    split <;> split <;> split <;> omega

/-- **Preprocessing settles**, at the latest when half the fences have been counted. -/
theorem text_settles (modules : List String) (s : List Char) :
    let rules : Rules := ⟨modules, standardDirective⟩
    let settled := (fun s => (text rules s).1)^[max 1 (fences s / 2)] s
    text rules settled = (settled, []) ∧
      (fences s ≤ 3 → text rules (text rules s).1 = ((text rules s).1, [])) := by
  intro rules settled
  have plain : isFence standardDirective.toList = false := by decide
  have again : text rules settled = (settled, []) := by
    obtain ⟨n, runs⟩ : ∃ n, max 1 (fences s / 2) = n + 1 := Nat.exists_eq_add_one.mpr (by omega)
    have few : fences settled < 2 := by
      have left : fences settled = _ := fences_iterate standardDirective_oneLine plain _ s
      rw [if_pos (Nat.le_max_right 1 _)] at left
      omega
    refine text_eq_self few ?_
    have last : settled = (text rules ((fun s => (text rules s).1)^[n] s)).1 := by
      simp only [settled, runs, Function.iterate_succ_apply']
    rw [last]
    exact needsDirective_text standardDirective_oneLine isDirectiveLine_standard
  refine ⟨again, fun few => ?_⟩
  have one : max 1 (fences s / 2) = 1 := by omega
  simpa only [settled, one, Function.iterate_one] using again

end ModuleRepair.Preprocess
