import ModuleRepair.Proofs.Text.Front
import ModuleRepair.Text.Blank

/-!
# Trimming

What is between the white space at both ends of a text is neither shortened (`trim_between`) nor
changed otherwise (`trim_isInfix`).
-/
namespace ModuleRepair.Text

theorem trim_isPrefix (s : List Char) : trim s <+: dropStart isBlank s := by
  have back := List.dropWhile_suffix isBlank (l := (dropStart isBlank s).reverse)
  simpa [trim, dropEnd] using List.reverse_prefix.mpr back

theorem trim_isInfix (s : List Char) : trim s <:+: s :=
  (trim_isPrefix s).isInfix.trans (List.dropWhile_suffix isBlank).isInfix

/-- White space on both sides of a text that neither starts nor ends with it. -/
theorem trim_between {before s after : List Char} (blankBefore : ∀ c ∈ before, isBlank c = true)
    (starts : ∀ c ∈ s.head?, isBlank c = false) (ends : ∀ c ∈ s.getLast?, isBlank c = false)
    (blankAfter : ∀ c ∈ after, isBlank c = true) : trim (before ++ s ++ after) = s := by
  have start : dropStart isBlank (before ++ s ++ after) = dropStart isBlank (s ++ after) := by
    rw [dropStart, List.append_assoc, List.dropWhile_append_of_pos blankBefore, dropStart]
  have blankEnd : ∀ c ∈ after.reverse, isBlank c = true := fun c hc =>
    blankAfter c (List.mem_reverse.mp hc)
  cases s with
  | nil =>
    have nothing : after.dropWhile isBlank = [] := List.dropWhile_eq_nil_iff.mpr blankAfter
    rw [trim, start, List.nil_append, dropStart, nothing]
    rfl
  | cons c s =>
    have shown : isBlank c = false := starts c rfl
    have kept : dropStart isBlank (c :: s ++ after) = c :: s ++ after := by
      simp [dropStart, shown]
    rw [trim, start, kept, dropEnd, List.reverse_append, dropWhile_exact blankEnd,
      List.reverse_reverse]
    rwa [List.head?_reverse]

theorem trim_eq_nil_iff {s : List Char} : trim s = [] ↔ ∀ c ∈ s, isBlank c = true := by
  constructor
  · intro empty
    have rest : ∀ c ∈ dropStart isBlank s, isBlank c = true := by
      simpa [trim, dropEnd, List.dropWhile_eq_nil_iff] using empty
    refine List.dropWhile_eq_nil_iff.mp ?_
    cases shown : s.dropWhile isBlank with
    | nil => rfl
    | cons c t =>
      have blank := rest c (by rw [dropStart, shown]; exact List.mem_cons_self)
      rw [head?_dropWhile isBlank s c (by rw [shown]; rfl)] at blank
      cases blank
  · intro blank
    have nothing : s.dropWhile isBlank = [] := List.dropWhile_eq_nil_iff.mpr blank
    rw [trim, dropStart, nothing]
    rfl

theorem trim_blank_append {before : List Char} (blank : ∀ c ∈ before, isBlank c = true)
    (s : List Char) : trim (before ++ s) = trim s := by
  rw [trim, dropStart, List.dropWhile_append_of_pos blank]
  rfl

end ModuleRepair.Text
