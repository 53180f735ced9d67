import ModuleRepair.Proofs.Path

/-!
# Normal paths

A normal path has one or two leading slashes and then names with slashes between them. It is its own
normal form, and a path of names below it is built by putting them behind its own.
-/
namespace ModuleRepair.Path

open ModuleRepair.Text

/-- The path is normal, of the given number of leading slashes and the given names. -/
structure Normal (slashes : Nat) (names : List Segment) (p : String) : Prop where
  text_eq : p.toList = List.replicate slashes '/' ++ Text.join ['/'] names
  slashes_eq : slashes = 1 ∨ slashes = 2
  isName : ∀ s ∈ names, IsName s

/-- The segments of leading slashes and names. -/
theorem split_slashes (slashes : Nat) (s : List Char) :
    split '/' (List.replicate slashes '/' ++ s) = List.replicate slashes [] ++ split '/' s := by
  induction slashes with
  | zero => rfl
  | succ n ih => rw [List.replicate_succ, List.cons_append, split_cons_sep, ih]; rfl

theorem foldl_push_empty (n : Nat) (kept : List Segment) :
    (List.replicate n []).foldl (push true) kept = kept := by
  induction n with
  | zero => rfl
  | succ n ih => simpa [List.replicate_succ, push] using ih

theorem foldl_push_names {names : List Segment} (hn : ∀ s ∈ names, IsName s)
    (kept : List Segment) : names.foldl (push true) kept = names.reverse ++ kept := by
  induction names generalizing kept with
  | nil => rfl
  | cons s names ih =>
    have name := hn s List.mem_cons_self
    have pushed : push true kept s = s :: kept := by
      simp [push, name.some, name.notDot, name.notParent]
    rw [List.foldl_cons, pushed, ih fun t ht => hn t (List.mem_cons_of_mem s ht)]
    simp

/-- Only the names are left. -/
theorem reduce_text (slashes : Nat) {names : List Segment} (hn : ∀ s ∈ names, IsName s) :
    reduce true (split '/' (List.replicate slashes '/' ++ Text.join ['/'] names)) = names := by
  rw [split_slashes, reduce, List.foldl_append, foldl_push_empty]
  cases names with
  | nil => simp [join_nil, split_of_not_mem, push]
  | cons s names =>
    rw [split_join (by simp) fun t ht => (hn t ht).noSlash, foldl_push_names hn]
    simp

theorem head?_join {names : List Segment} (hn : ∀ s ∈ names, IsName s) :
    (Text.join ['/'] names).head? ≠ some '/' := by
  cases names with
  | nil => simp [join_nil]
  | cons s names =>
    have name := hn s List.mem_cons_self
    obtain ⟨c, rest, rfl⟩ := List.exists_cons_of_ne_nil name.some
    have other : c ≠ '/' := fun slash => name.noSlash (by simp [slash])
    cases names with
    | nil => simpa [join_singleton] using other
    | cons t names => simpa [join_cons_cons] using other

theorem join_append (sep : List Char) {as bs : List (List Char)} (ha : as ≠ []) (hb : bs ≠ []) :
    Text.join sep (as ++ bs) = Text.join sep as ++ sep ++ Text.join sep bs := by
  induction as with
  | nil => exact absurd rfl ha
  | cons a as ih =>
    cases as with
    | nil =>
      obtain ⟨b, bs, rfl⟩ := List.exists_cons_of_ne_nil hb
      simp [join_cons_cons, join_singleton]
    | cons a' as =>
      have rest := ih (List.cons_ne_nil a' as)
      rw [List.cons_append] at rest
      simp [join_cons_cons, rest]

theorem split_append_slash (a b : List Char) :
    split '/' (a ++ '/' :: b) = split '/' a ++ split '/' b := by
  have some (s : List Char) : split '/' s ≠ [] := split_ne_nil '/' s
  have text : a ++ '/' :: b = Text.join ['/'] (split '/' a ++ split '/' b) := by
    rw [join_append ['/'] (some a) (some b), join_split, join_split]
    simp
  rw [text, split_join (List.append_ne_nil_of_left_ne_nil (some a) _)]
  intro s hs
  exact (List.mem_append.mp hs).elim not_mem_of_mem_split not_mem_of_mem_split

/-- The text of names ends with the last one. -/
theorem join_concat (front : List Segment) (s : Segment) :
    ∃ before, Text.join ['/'] (front ++ [s]) = before ++ s ∧
      (front = [] ∧ before = [] ∨ front ≠ [] ∧ before = Text.join ['/'] front ++ ['/']) := by
  cases front with
  | nil => exact ⟨[], by simp [join_singleton], .inl ⟨rfl, rfl⟩⟩
  | cons t front =>
    refine ⟨Text.join ['/'] (t :: front) ++ ['/'], ?_, .inr ⟨List.cons_ne_nil t front, rfl⟩⟩
    rw [join_append ['/'] (List.cons_ne_nil t front) (List.cons_ne_nil s []), join_singleton]

/-- The text of names does not end with a slash. -/
theorem join_end {names : List Segment} (filled : names ≠ []) (hn : ∀ s ∈ names, IsName s) :
    ∃ before c, c ≠ '/' ∧ Text.join ['/'] names = before ++ [c] := by
  obtain ⟨front, s, rfl⟩ := names.eq_nil_or_concat.resolve_left filled
  rw [List.concat_eq_append] at hn ⊢
  obtain ⟨before, text, -⟩ := join_concat front s
  have name := hn s (by simp)
  have last := List.dropLast_concat_getLast name.some
  refine ⟨before ++ s.dropLast, s.getLast name.some, fun slash => ?_, ?_⟩
  · exact name.noSlash (slash ▸ List.getLast_mem name.some)
  · rw [text, List.append_assoc, last]

theorem rootSlashes_replicate {slashes : Nat} (h : slashes = 1 ∨ slashes = 2) {text : List Char}
    (head : text.head? ≠ some '/') :
    rootSlashes (List.replicate slashes '/' ++ text) = slashes := by
  rcases h with rfl | rfl <;> rcases text with _ | ⟨c, text⟩ <;>
    simp_all [rootSlashes, List.replicate_succ]

theorem rootSlashes_text {slashes : Nat} (h : slashes = 1 ∨ slashes = 2) {names : List Segment}
    (hn : ∀ s ∈ names, IsName s) :
    rootSlashes (List.replicate slashes '/' ++ Text.join ['/'] names) = slashes :=
  rootSlashes_replicate h (head?_join hn)

theorem rootSlashes_rooted (rest : List Char) :
    rootSlashes ('/' :: rest) = 1 ∨ rootSlashes ('/' :: rest) = 2 := by
  unfold rootSlashes
  split <;> simp_all

theorem ofSegments_rooted {slashes : Nat} (h : slashes = 1 ∨ slashes = 2) (names : List Segment) :
    ofSegments slashes names = List.replicate slashes '/' ++ Text.join ['/'] names := by
  rcases h with rfl | rfl <;> simp [ofSegments, List.replicate_succ]

/-- The normal form of a path has the leading slashes that count, and the names that are left. -/
theorem normal_of_join (p : String) : Normal (rootSlashes (join "/" p).toList)
    (reduce true (split '/' (join "/" p).toList)) (absolute p) := by
  obtain ⟨rest, text⟩ : ∃ rest, (join "/" p).toList = '/' :: rest := by
    unfold join
    split
    · next rooted => simpa [isAbsolute, List.head?_eq_some_iff] using rooted
    · exact ⟨p.toList, by simp⟩
  have rooted := rootSlashes_rooted rest
  rw [← text] at rooted
  refine ⟨?_, rooted, ?_⟩
  · have some : (rootSlashes (join "/" p).toList != 0) = true := by
      rcases rooted with h | h <;> rw [h] <;> rfl
    rw [absolute, normalize, String.toList_ofList, normalizeText, some, ofSegments_rooted rooted]
  · intro s hs
    exact isName_of_mem_foldl (fun _ ht => not_mem_of_mem_split ht) (by simp) s
      (List.mem_reverse.mp hs)

/-- The normal form of a path is normal. -/
theorem normal_absolute (p : String) : ∃ slashes names, Normal slashes names (absolute p) :=
  ⟨_, _, normal_of_join p⟩

namespace Normal

variable {slashes slashes' : Nat} {names below : List Segment} {p d : String}

theorem isAbsolute (h : Normal slashes names p) : Path.isAbsolute p = true := by
  rw [Path.isAbsolute, h.text_eq]
  rcases h.slashes_eq with rfl | rfl <;> simp [List.replicate_succ]

/-- A path with names ends in its last one, behind a slash. -/
theorem text_concat {front : List Segment} {last : Segment}
    (h : Normal slashes (front ++ [last]) p) :
    ∃ before, p.toList = before ++ '/' :: last := by
  obtain ⟨before, text, ⟨-, rfl⟩ | ⟨-, rfl⟩⟩ := join_concat front last
  · refine ⟨List.replicate (slashes - 1) '/', ?_⟩
    rw [h.text_eq, text]
    rcases h.slashes_eq with rfl | rfl <;> simp [List.replicate_succ]
  · exact ⟨List.replicate slashes '/' ++ Text.join ['/'] front, by rw [h.text_eq, text]; simp⟩

/-- A normal path is its own normal form. -/
theorem absolute_eq (h : Normal slashes names p) : absolute p = p := by
  have some : (slashes != 0) = true := by
    rcases h.slashes_eq with rfl | rfl <;> rfl
  rw [absolute, join, if_pos h.isAbsolute, normalize, normalizeText, h.text_eq,
    rootSlashes_text h.slashes_eq h.isName, some, reduce_text slashes h.isName,
    ofSegments_rooted h.slashes_eq, ← h.text_eq, String.ofList_toList]

theorem absoluteSegments (h : Normal slashes names p) : absoluteSegments p = names := by
  rw [Path.absoluteSegments, h.absolute_eq, h.text_eq, split_slashes, List.filter_append]
  have empty : (List.replicate slashes ([] : Segment)).filter (!·.isEmpty) = [] := by
    simp
  rw [empty, List.nil_append]
  cases names with
  | nil => simp [join_nil, split_of_not_mem]
  | cons s names =>
    rw [split_join (by simp) fun t ht => (h.isName t ht).noSlash]
    exact List.filter_eq_self.mpr fun t ht => by simpa using (h.isName t ht).some

theorem afterCommon_append (names below : List Segment) :
    afterCommon (names ++ below) names = (below, []) := by
  induction names with
  | nil => cases below <;> rfl
  | cons s names ih => simpa [afterCommon] using ih

/-- A path as it is seen from a directory above. -/
theorem relative_eq (hp : Normal slashes (names ++ below) p) (hd : Normal slashes' names d)
    (filled : below ≠ []) : relative p d = String.ofList (Text.join ['/'] below) := by
  rw [relative, hp.absoluteSegments, hd.absoluteSegments, afterCommon_append]
  simp [filled]

/-- The text of a path that is taken from a directory. -/
theorem toList_join (hd : Normal slashes names d) {b : String}
    (relative : Path.isAbsolute b = false) :
    (join d b).toList = List.replicate slashes '/' ++
      if names = [] then b.toList else Text.join ['/'] names ++ '/' :: b.toList := by
  cases names with
  | nil =>
    have slash : d.toList.getLast? = some '/' := by
      rw [hd.text_eq]
      rcases hd.slashes_eq with rfl | rfl <;> rfl
    rw [join, relative, slash]
    simp [hd.text_eq, join_nil]
  | cons s names =>
    obtain ⟨before, c, other, text⟩ := join_end (List.cons_ne_nil s names) hd.isName
    rw [join, relative, hd.text_eq, text]
    simp [other, hd.text_eq, text]

/-- Going down from a directory. -/
theorem join_below (hd : Normal slashes names d) (filled : below ≠ [])
    (hb : ∀ s ∈ below, IsName s) :
    Normal slashes (names ++ below) (join d (String.ofList (Text.join ['/'] below))) where
  text_eq := by
    have relative : Path.isAbsolute (String.ofList (Text.join ['/'] below)) = false := by
      simpa [Path.isAbsolute] using head?_join hb
    rw [hd.toList_join relative, String.toList_ofList]
    split
    · next none => rw [none, List.nil_append]
    · next some =>
      rw [join_append ['/'] some filled]
      simp
  slashes_eq := hd.slashes_eq
  isName s hs := (List.mem_append.mp hs).elim (hd.isName s) (hb s)

/-- A normal path that is taken from a directory lies below it. -/
theorem below_of_join (hp : Normal slashes names p) (filled : names ≠ [])
    {root : List Segment} (hd : Normal slashes' root d) {b : String}
    (relative : Path.isAbsolute b = false) (path : p = join d b) :
    slashes = slashes' ∧ names = root ++ split '/' b.toList := by
  have text := hd.toList_join relative
  rw [← path] at text
  have same : slashes = slashes' := by
    have head : (if root = [] then b.toList else Text.join ['/'] root ++ '/' :: b.toList).head? ≠
        some '/' := by
      split
      · simpa [Path.isAbsolute] using relative
      · next some =>
        obtain ⟨before, c, other, ends⟩ := join_end some hd.isName
        have start := head?_join hd.isName
        rw [ends] at start ⊢
        cases before <;> simpa using start
    have leading := congrArg rootSlashes text
    rwa [hp.text_eq, rootSlashes_text hp.slashes_eq hp.isName,
      rootSlashes_replicate hd.slashes_eq head] at leading
  subst same
  refine ⟨rfl, ?_⟩
  have parts := congrArg (split '/') text
  rw [hp.text_eq, split_slashes, split_slashes,
    split_join filled fun s hs => (hp.isName s hs).noSlash] at parts
  rw [List.append_cancel_left parts]
  split
  · next none => rw [none, List.nil_append]
  · next some =>
    rw [split_append_slash, split_join some fun s hs => (hd.isName s hs).noSlash]

end Normal

end ModuleRepair.Path
