import ModuleRepair.Proofs.Specifier

/-!
# The last segment of a path

Whether a path names a module is decided by its last segment. Such a segment is a name, and the walk
over the path ends with it.
-/
namespace ModuleRepair.Path

open ModuleRepair.Text ModuleRepair.Script

/-! ## Names -/

theorem names_ofList (text : List Char) :
    names (String.ofList text) = (split '/' text).foldl (push true) [] := by
  rw [names, String.toList_ofList]

/-- Below a directory the walk goes on from there. -/
theorem names_append_slash (a b : List Char) :
    names (String.ofList (a ++ '/' :: b)) =
      (split '/' b).foldl (push true) (names (String.ofList a)) := by
  rw [names_ofList, names_ofList, split_append_slash, List.foldl_append]

theorem names_slashes (n : Nat) (text : List Char) :
    names (String.ofList (List.replicate n '/' ++ text)) = names (String.ofList text) := by
  rw [names_ofList, names_ofList, split_slashes, List.foldl_append, foldl_push_empty]

theorem names_ofNames {above : List Segment} (h : ∀ s ∈ above, IsName s) :
    names (ofNames above) = above := by
  have back : ∀ s ∈ above.reverse, IsName s := fun s hs => h s (List.mem_reverse.mp hs)
  have only := reduce_text 1 back
  rw [reduce, List.reverse_inj] at only
  rw [ofNames, names_ofList]
  exact only

theorem names_absolute (p : String) : names (absolute p) = names p := by
  obtain ⟨slashes, text⟩ := toList_absolute p
  rw [← String.ofList_toList (s := absolute p), text, names_slashes, String.ofList_toList,
    names_ofNames (isName_of_mem_names p)]

theorem names_join {p : String} (h : isAbsolute p = false) (d : String) :
    names (join d p) = (split '/' p.toList).foldl (push true) (names d) := by
  unfold join
  rw [h]
  split
  · cases ‹false = true›
  · split
    · next ends =>
      rw [Bool.or_eq_true, List.isEmpty_iff, beq_iff_eq, List.getLast?_eq_some_iff] at ends
      rcases ends with none | ⟨front, text⟩
      · simp [names, none, split, split.go, push]
      · have whole : d ++ p = String.ofList (front ++ '/' :: p.toList) := by
          rw [← String.toList_inj]
          simp [text]
        have empty : names d = names (String.ofList front) := by
          rw [← String.ofList_toList (s := d), text, names_append_slash]
          simp [split_of_not_mem, push]
        rw [whole, names_append_slash, empty]
    · have whole : d ++ "/" ++ p = String.ofList (d.toList ++ '/' :: p.toList) := by
        rw [← String.toList_inj]
        simp
      rw [whole, names_append_slash, String.ofList_toList]

/-! ## Paths from the root -/

theorem join_of_isAbsolute {p : String} (h : isAbsolute p = true) (d : String) : join d p = p := by
  rw [join, if_pos h]

theorem isAbsolute_join {d : String} (h : isAbsolute d = true) (p : String) :
    isAbsolute (join d p) = true := by
  obtain ⟨rest, text⟩ : ∃ rest, d.toList = '/' :: rest := by
    simpa [isAbsolute, List.head?_eq_some_iff] using h
  unfold join
  split
  · assumption
  · split <;> simp [isAbsolute, text]

theorem isAbsolute_absolute (p : String) : isAbsolute (absolute p) = true := by
  obtain ⟨slashes, names, normal⟩ := normal_absolute p
  exact normal.isAbsolute

theorem absolute_absolute (p : String) : absolute (absolute p) = absolute p := by
  obtain ⟨slashes, names, normal⟩ := normal_absolute p
  exact normal.absolute_eq

theorem normalize_eq {p : String} (h : isAbsolute p = true) : normalize p = absolute p := by
  rw [absolute, join_of_isAbsolute h]

/-! ## The last segment -/

/-- The last segment of a path. -/
def last (p : String) : Segment :=
  (cut p.toList).2

theorem not_mem_last (p : String) : '/' ∉ last p :=
  not_mem_takeWhile '/' p.toList

/-- A path is a single segment, or its last one stands behind a slash. -/
theorem last_cases (p : String) :
    p.toList = last p ∨ ∃ front, p.toList = front ++ '/' :: last p :=
  (eq_append_of_takeWhile '/' p.toList).imp_left Eq.symm

theorem last_append {p : String} (front : List Char) {s : Segment} (hs : '/' ∉ s)
    (text : p.toList = front ++ '/' :: s) : last p = s := by
  rw [last, text, cut_append_slash front hs]

theorem last_ofNames {s : Segment} (hs : '/' ∉ s) (above : List Segment) :
    last (ofNames (s :: above)) = s := by
  obtain ⟨front, text⟩ := toList_ofNames_cons s above
  exact last_append front hs text

/-- When the last segment is a name, the walk ends there. -/
theorem names_eq_cons {p : String} (h : IsName (last p)) : ∃ above, names p = last p :: above := by
  have pushed (kept : List Segment) : push true kept (last p) = last p :: kept := by
    simp [push, h.some, h.notDot, h.notParent]
  have single : split '/' (last p) = [last p] := split_of_not_mem h.noSlash
  rcases last_cases p with text | ⟨front, text⟩
  · refine ⟨[], ?_⟩
    rw [names, text, single]
    exact pushed []
  · refine ⟨names (String.ofList front), ?_⟩
    rw [← String.ofList_toList (s := p), text, names_append_slash, ← text, String.ofList_toList,
      single]
    exact pushed _

/-! ## Modules -/

theorem isSupported_congr {p q : String} (h : last p = last q) : isSupported p = isSupported q := by
  have extension_eq : extension p = extension q := by
    unfold last at h
    unfold extension cutExtension
    rw [h]
    dsimp only
    split <;> rfl
  rw [isSupported, Language.ofPath?, extension_eq]
  rfl

theorem extension_ne_empty {p : String} (h : isSupported p = true) : extension p ≠ "" := by
  intro none
  rw [isSupported, Language.ofPath?, none] at h
  revert h
  decide

theorem isName_of_isSupported {p : String} (h : isSupported p = true) : IsName (last p) := by
  have bare (s : Segment) (hs : s = [] ∨ s = ['.'] ∨ s = parent) : last p ≠ s := by
    intro same
    refine extension_ne_empty h ?_
    unfold last at same
    unfold extension cutExtension
    rw [same]
    rcases hs with rfl | rfl | rfl <;> rfl
  exact ⟨bare _ (.inl rfl), bare _ (.inr (.inl rfl)), bare _ (.inr (.inr rfl)), not_mem_last p⟩

/-- No extension of a module ends with a line feed. -/
theorem isSupported_append_feed {p : String} {s : List Char}
    (ext : (extension p).toList = s ++ ['\n']) : isSupported p = false := by
  have ends : (lowerString (extension p)).toList.getLast? = some '\n' := by
    obtain ⟨front, split⟩ := lower.go_append [] s ['\n']
    rw [lowerString, String.toList_ofList, ext, lower, split]
    simp [lower.go, lowerAmong, lowerChar]
  have other : ∀ e ∈ Language.extensions, e.1.toList.getLast? ≠ some '\n' := by decide
  rw [isSupported, Language.ofPath?]
  generalize lowerString (extension p) = key at ends
  have absent : Language.extensions.lookup key = none := by
    refine List.lookup_eq_none_iff.mpr fun e he => bne_iff_ne.mpr fun same => other e he ?_
    rw [← same]
    exact ends
  rw [absent]
  rfl

end ModuleRepair.Path
