import Mathlib.Data.List.TakeWhile
import ModuleRepair.Preprocess.Text

/-!
# What stripping keeps

Of a text with two fences at least, stripping keeps the lines strictly between the first and the
last one, and all lines of any other text (`keeps_kept`). So each time two fences go, as long as
there are two (`Keeps.countP_isFence`).
-/
namespace ModuleRepair.Preprocess

open ModuleRepair.Text

theorem unlines_linesOf (s : List Char) : unlines (linesOf s) = s :=
  join_split '\n' s

/-- Lines come back from their text, if there are any. -/
theorem linesOf_unlines {lines : List Line} (some : lines ≠ []) (whole : ∀ l ∈ lines, '\n' ∉ l) :
    linesOf (unlines lines) = lines :=
  split_join some whole

/-- A line ends before the next line feed. -/
theorem not_mem_of_mem_linesOf {s : List Char} {l : Line} (h : l ∈ linesOf s) : '\n' ∉ l :=
  not_mem_of_mem_split h

/-- The number of fences in a text. -/
def fences (s : List Char) : Nat :=
  (linesOf s).countP isFence

/-- What stripping keeps of some lines. -/
inductive Keeps : List Line → List Line → Prop
  | between {front body back : List Line} {opening closing : Line} :
      (∀ l ∈ front, isFence l = false) → isFence opening = true → isFence closing = true →
      (∀ l ∈ back, isFence l = false) →
      Keeps (front ++ opening :: (body ++ closing :: back)) body
  | all {lines : List Line} : lines.countP isFence < 2 → Keeps lines lines

/-- The lines that stripping keeps. -/
def kept (lines : List Line) : List Line :=
  (fenced? lines).getD lines

/-- From the first fence on, if there is one. -/
theorem split_first_fence (lines : List Line) :
    (∀ l ∈ lines, isFence l = false) ∧ lines.dropWhile (!isFence ·) = [] ∨
      ∃ front opening rest, lines = front ++ opening :: rest ∧ (∀ l ∈ front, isFence l = false) ∧
        isFence opening = true ∧ lines.dropWhile (!isFence ·) = opening :: rest := by
  cases found : lines.find? isFence with
  | none =>
    have none : ∀ l ∈ lines, isFence l = false := by simpa using List.find?_eq_none.mp found
    exact .inl ⟨none, List.dropWhile_eq_nil_iff.mpr fun l hl => by simp [none l hl]⟩
  | some opening =>
    obtain ⟨opens, front, rest, rfl, first⟩ := List.find?_eq_some_iff_append.mp found
    refine .inr ⟨front, opening, rest, rfl, by simpa using first, opens, ?_⟩
    rw [List.dropWhile_append_of_pos first, List.dropWhile_cons_of_neg (by simp [opens])]

theorem countP_eq_zero_of_none {lines : List Line} (none : ∀ l ∈ lines, isFence l = false) :
    lines.countP isFence = 0 :=
  List.countP_eq_zero.mpr fun l hl => by simp [none l hl]

/-- The lines inside of the fences are found just where there are two of them. -/
theorem fenced?_spec (lines : List Line) :
    fenced? lines = none ∧ lines.countP isFence < 2 ∨
      ∃ body, fenced? lines = some body ∧ Keeps lines body ∧ 2 ≤ lines.countP isFence := by
  rcases split_first_fence lines with
    ⟨none, dropped⟩ | ⟨front, opening, rest, rfl, first, opens, dropped⟩
  · exact .inl ⟨by simp [fenced?, dropped], by simp [countP_eq_zero_of_none none]⟩
  · -- The last fence is the first one from behind.
    rcases split_first_fence rest.reverse with
      ⟨none, dropped'⟩ | ⟨back, closing, body, split, last, closes, dropped'⟩
    · have none : ∀ l ∈ rest, isFence l = false := by simpa using none
      refine .inl ⟨by simp [fenced?, dropped, dropped'], ?_⟩
      simp [countP_eq_zero_of_none first, countP_eq_zero_of_none none, opens]
    · have split : rest = body.reverse ++ closing :: back.reverse := by
        simpa using congrArg List.reverse split
      refine .inr ⟨body.reverse, by simp [fenced?, dropped, dropped'], ?_, ?_⟩
      · rw [split]
        exact .between first opens closes (by simpa using last)
      · rw [split]
        simp only [List.countP_append, List.countP_cons, opens, closes, if_true]
        omega

theorem keeps_kept (lines : List Line) : Keeps lines (kept lines) := by
  rcases fenced?_spec lines with ⟨none, few⟩ | ⟨body, some, keeps, -⟩
  · simpa [kept, none] using Keeps.all few
  · simpa [kept, some] using keeps

theorem isSome_fenced?_iff {lines : List Line} :
    (fenced? lines).isSome = true ↔ 2 ≤ lines.countP isFence := by
  rcases fenced?_spec lines with ⟨none, few⟩ | ⟨body, some, -, enough⟩
  · simp [none, few]
  · simp [some, enough]

namespace Keeps

variable {lines body : List Line}

/-- Two fences go, if there are two. -/
theorem countP_isFence (h : Keeps lines body) :
    body.countP isFence =
      if lines.countP isFence < 2 then lines.countP isFence else lines.countP isFence - 2 := by
  cases h with
  | between first opens closes last =>
    simp only [List.countP_append, List.countP_cons, countP_eq_zero_of_none first,
      countP_eq_zero_of_none last, opens, closes, if_true]
    split <;> omega
  | all few => rw [if_pos few]

/-- Stripping keeps lines in their order, and at least two lines less when it takes any away. -/
theorem sublist (h : Keeps lines body) : body.Sublist lines := by
  cases h with
  | between =>
    exact ((List.sublist_append_left _ _).trans (List.sublist_cons_self _ _)).trans
      (List.sublist_append_right _ _)
  | all => exact .refl _

theorem length_le (h : Keeps lines body) (enough : 2 ≤ lines.countP isFence) :
    body.length + 2 ≤ lines.length := by
  cases h with
  | between => simp; omega
  | all few => omega

end Keeps

end ModuleRepair.Preprocess
