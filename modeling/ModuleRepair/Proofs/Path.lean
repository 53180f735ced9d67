import ModuleRepair.Path

/-!
# The names of a path

Normalizing a path that starts at the root leaves a list of names. A path is built from such a list
here, so that going to an entry puts a name on the list and going to the parent takes one off.
-/
namespace ModuleRepair.Path

open ModuleRepair.Text

/-- A segment that names an entry of a directory. -/
structure IsName (s : Segment) : Prop where
  some : s ≠ []
  notDot : s ≠ ['.']
  notParent : s ≠ parent
  noSlash : '/' ∉ s

/-- The path of names, the last one first. Without names it is the root. -/
def ofNames (names : List Segment) : String :=
  String.ofList ('/' :: Text.join ['/'] names.reverse)

theorem ofNames_nil : ofNames [] = "/" := rfl

theorem toList_ofNames_singleton (s : Segment) : (ofNames [s]).toList = '/' :: s := by
  simp [ofNames, join_singleton]

theorem toList_ofNames_cons_cons (s t : Segment) (names : List Segment) :
    (ofNames (s :: t :: names)).toList = (ofNames (t :: names)).toList ++ '/' :: s := by
  have filled : (t :: names).reverse ≠ [] := by simp
  have last : (s :: t :: names).reverse = (t :: names).reverse ++ [s] := List.reverse_cons
  simp only [ofNames, String.toList_ofList, last, join_append_singleton ['/'] s filled]
  simp

/-- A path with names ends in its last one, behind a slash. -/
theorem toList_ofNames_cons (s : Segment) (names : List Segment) :
    ∃ front, (ofNames (s :: names)).toList = front ++ '/' :: s := by
  cases names with
  | nil => exact ⟨[], toList_ofNames_singleton s⟩
  | cons t names => exact ⟨_, toList_ofNames_cons_cons s t names⟩

/-- A path with names does not end in a slash. -/
theorem ofNames_cons_end {s : Segment} (hs : IsName s) (names : List Segment) :
    ∃ front c, c ≠ '/' ∧ (ofNames (s :: names)).toList = front ++ [c] := by
  obtain ⟨front, text⟩ := toList_ofNames_cons s names
  have last := List.dropLast_concat_getLast hs.some
  refine ⟨front ++ '/' :: s.dropLast, s.getLast hs.some, fun slash => ?_, ?_⟩
  · exact hs.noSlash (slash ▸ List.getLast_mem hs.some)
  · rw [text, List.append_assoc, List.cons_append, last]

/-- Going to an entry. -/
theorem join_ofNames {names : List Segment} (hn : ∀ s ∈ names, IsName s) {s : Segment}
    (hs : IsName s) : join (ofNames names) (String.ofList s) = ofNames (s :: names) := by
  have relative : isAbsolute (String.ofList s) = false := by
    obtain ⟨c, rest, rfl⟩ := List.exists_cons_of_ne_nil hs.some
    have : c ≠ '/' := fun slash => hs.noSlash (by simp [slash])
    simpa [isAbsolute] using this
  have filled : (ofNames names).toList.isEmpty = false := by simp [ofNames]
  apply String.toList_inj.mp
  cases names with
  | nil =>
    rw [toList_ofNames_singleton]
    simp [join, relative, ofNames_nil]
  | cons t names =>
    obtain ⟨front, c, other, text⟩ := ofNames_cons_end (hn t List.mem_cons_self) names
    rw [toList_ofNames_cons_cons]
    simp [join, relative, text, other]

theorem cut_append_slash (front : List Char) {s : Segment} (hs : '/' ∉ s) :
    cut (front ++ '/' :: s) = (front ++ ['/'], s) := by
  have name : ((front ++ '/' :: s).reverse.takeWhile (· != '/')).reverse = s := by
    have split : (front ++ '/' :: s).reverse = s.reverse ++ '/' :: front.reverse := by simp
    rw [split, List.takeWhile_append_of_pos (by
      intro c hc
      have : c ≠ '/' := fun slash => hs (by simpa [slash] using hc)
      simpa using this)]
    simp
  simp only [cut, name]
  have : (front ++ '/' :: s).length - s.length = (front ++ ['/']).length := by simp; omega
  rw [this, show front ++ '/' :: s = (front ++ ['/']) ++ s by simp, List.take_left]

theorem directory_append {front : List Char} {c : Char} (other : c ≠ '/') {s : Segment}
    (hs : '/' ∉ s) :
    directory (String.ofList ((front ++ [c]) ++ '/' :: s)) = String.ofList (front ++ [c]) := by
  simp only [directory, String.toList_ofList, cut_append_slash (front ++ [c]) hs]
  simp [other]

/-- Going to the parent. -/
theorem directory_ofNames {names : List Segment} (hn : ∀ s ∈ names, IsName s) {s : Segment}
    (hs : IsName s) : directory (ofNames (s :: names)) = ofNames names := by
  cases names with
  | nil =>
    have parts := cut_append_slash [] hs.noSlash
    simp only [List.nil_append] at parts
    simp [directory, toList_ofNames_singleton, parts, ofNames_nil]
  | cons t names =>
    obtain ⟨front, c, other, text⟩ := ofNames_cons_end (hn t List.mem_cons_self) names
    have path : ofNames (s :: t :: names) = String.ofList ((front ++ [c]) ++ '/' :: s) := by
      rw [← text, ← toList_ofNames_cons_cons, String.ofList_toList]
    rw [path, directory_append other hs.noSlash, ← text, String.ofList_toList]

theorem directory_root : directory (ofNames []) = ofNames [] := by
  simp [ofNames_nil, directory, cut]

/-- The names that are left of a path from the root, the last one first. -/
def names (p : String) : List Segment :=
  (split '/' p.toList).foldl (push true) []

/-- Only names are kept. -/
theorem isName_of_mem_push {kept : List Segment} (hk : ∀ t ∈ kept, IsName t) {s : Segment}
    (hs : '/' ∉ s) : ∀ t ∈ push true kept s, IsName t := by
  unfold push
  split
  · exact hk
  · next written =>
    split
    · cases kept with
      | nil => simp
      | cons top rest =>
        simp only [(hk top List.mem_cons_self).notParent, if_false]
        exact fun t ht => hk t (List.mem_cons_of_mem top ht)
    · next other =>
      have name : IsName s :=
        ⟨fun none => written (.inl none), fun dot => written (.inr dot), other, hs⟩
      exact List.forall_mem_cons.mpr ⟨name, hk⟩

theorem isName_of_mem_foldl {segments : List Segment} (hs : ∀ s ∈ segments, '/' ∉ s)
    {kept : List Segment} (hk : ∀ t ∈ kept, IsName t) :
    ∀ t ∈ segments.foldl (push true) kept, IsName t := by
  induction segments generalizing kept with
  | nil => exact hk
  | cons s rest ih =>
    have pushed := isName_of_mem_push hk (hs s List.mem_cons_self)
    exact ih (fun t ht => hs t (List.mem_cons_of_mem s ht)) pushed

theorem isName_of_mem_names (p : String) : ∀ s ∈ names p, IsName s :=
  isName_of_mem_foldl (fun _ hs => not_mem_of_mem_split hs) (by simp)

/-- The normal form of a path is that of its names; a second slash may stand before it. -/
theorem toList_absolute (p : String) :
    ∃ slashes, (absolute p).toList = List.replicate slashes '/' ++ (ofNames (names p)).toList := by
  have normal (text : List Char) (n : Nat) (root : rootSlashes text = n + 1)
      (same : (split '/' text).foldl (push true) [] = names p) :
      normalizeText text = List.replicate n '/' ++ (ofNames (names p)).toList := by
    simp [normalizeText, root, reduce, same, ofSegments, ofNames, List.replicate_succ']
  cases h : isAbsolute p with
  | true =>
    obtain ⟨rest, text⟩ : ∃ rest, p.toList = '/' :: rest := by
      simpa [isAbsolute, List.head?_eq_some_iff] using h
    have root : ∃ n, rootSlashes p.toList = n + 1 := by
      rw [text]
      unfold rootSlashes
      split <;> simp_all
    obtain ⟨n, root⟩ := root
    exact ⟨n, by simp [absolute, normalize, join, h, normal p.toList n root rfl]⟩
  | false =>
    have behind : (join "/" p).toList = '/' :: p.toList := by simp [join, h]
    have root : rootSlashes ('/' :: p.toList) = 1 := by
      unfold rootSlashes
      split <;> simp_all [isAbsolute]
    have same : (split '/' ('/' :: p.toList)).foldl (push true) [] = names p := by
      rw [split_cons_sep]
      simp [names, push]
    exact ⟨0, by simp [absolute, normalize, behind, normal _ 0 root same]⟩

theorem absolute_ne_empty (p : String) : absolute p ≠ "" := by
  obtain ⟨slashes, text⟩ := toList_absolute p
  intro none
  rw [none] at text
  simp [ofNames] at text

end ModuleRepair.Path
