import ModuleRepair.Proofs.Path.Last
import ModuleRepair.Proofs.Project.Order

/-!
# Where a tail leads

A specifier is compared with others by its tail. If the tail is made of names, the path that the
specifier leads to ends with it, whatever the importing file (`suffix_of_basePath?`). So two such
specifiers of one path match (`matchesPath_of_basePath?`), and a module that a matching specifier
leads to is one that the shorter tail may mean (`mayMean_of_matchesPath`). It need not be the only
one.
-/
namespace ModuleRepair

open ModuleRepair.Text

/-! ## Texts that end with names -/

namespace Specifier

/-- Leading steps end with a slash. -/
theorem dropRelative_split (s : List Char) :
    ∃ steps, s = steps ++ dropRelative s ∧ (steps = [] ∨ steps.getLast? = some '/') := by
  have onward (step : List Char) (last : step.getLast? = some '/') {steps : List Char}
      (start : steps = [] ∨ steps.getLast? = some '/') :
      (step ++ steps).getLast? = some '/' := by
    rcases start with rfl | ends
    · simpa using last
    · simp [List.getLast?_append, ends]
  induction s using dropRelative.induct with
  | case1 rest ih =>
    obtain ⟨steps, whole, start⟩ := ih
    refine ⟨['.', '/'] ++ steps, ?_, .inr (onward ['.', '/'] rfl start)⟩
    rw [dropRelative, List.append_assoc, ← whole]
    rfl
  | case2 rest ih =>
    obtain ⟨steps, whole, start⟩ := ih
    refine ⟨['.', '.', '/'] ++ steps, ?_, .inr (onward ['.', '.', '/'] rfl start)⟩
    rw [dropRelative, List.append_assoc, ← whole]
    rfl
  | case3 s here above =>
    refine ⟨[], ?_, .inl rfl⟩
    rw [List.nil_append, dropRelative.eq_3 s here above]

theorem dropEnd_split (s : List Char) :
    ∃ n, s = dropEnd (· == '/') s ++ List.replicate n '/' := by
  have slashes : ∀ c ∈ s.reverse.takeWhile (· == '/'), c = '/' := fun c hc => by
    simpa using List.all_eq_true.mp List.all_takeWhile c hc
  refine ⟨(s.reverse.takeWhile (· == '/')).length, ?_⟩
  have whole := congrArg List.reverse
    (List.takeWhile_append_dropWhile (p := (· == '/')) (l := s.reverse))
  rw [List.reverse_append, List.reverse_reverse, List.eq_replicate_of_mem slashes] at whole
  simpa [dropEnd] using whole.symm

end Specifier

namespace Path

instance (s : Segment) : Decidable (IsName s) :=
  decidable_of_iff (s ≠ [] ∧ s ≠ ['.'] ∧ s ≠ parent ∧ '/' ∉ s)
    ⟨fun ⟨filled, notDot, notParent, noSlash⟩ => ⟨filled, notDot, notParent, noSlash⟩,
      fun h => ⟨h.some, h.notDot, h.notParent, h.noSlash⟩⟩

/-- A walk over names, and slashes behind them, ends with the names. -/
theorem exists_walk {front tail : List Char} (names : ∀ s ∈ split '/' tail, IsName s)
    (start : front = [] ∨ front.getLast? = some '/') (n : Nat) (kept : List Segment) :
    ∃ above, (split '/' (front ++ tail ++ List.replicate n '/')).foldl (push true) kept =
      (split '/' tail).reverse ++ above := by
  have slashes (text : List Char) (kept : List Segment) :
      (split '/' (text ++ List.replicate n '/')).foldl (push true) kept =
        (split '/' text).foldl (push true) kept := by
    cases n with
    | zero => simp
    | succ n =>
      have empty := split_slashes n []
      rw [List.append_nil] at empty
      rw [List.replicate_succ, split_append_slash, List.foldl_append, empty, List.foldl_append,
        foldl_push_empty]
      simp [split_of_not_mem, push]
  rcases start with rfl | slash
  · exact ⟨kept, by rw [slashes, List.nil_append, foldl_push_names names]⟩
  · obtain ⟨above, rfl⟩ := List.getLast?_eq_some_iff.mp slash
    refine ⟨(split '/' above).foldl (push true) kept, ?_⟩
    have behind : above ++ ['/'] ++ tail = above ++ '/' :: tail := by simp
    rw [slashes, behind, split_append_slash, List.foldl_append, foldl_push_names names]

/-- A path whose last names are those of a text ends with the text. -/
theorem suffix_absolute {p : String} {tail : List Char} {above : List Segment}
    (h : names p = (split '/' tail).reverse ++ above) : '/' :: tail <:+ (absolute p).toList := by
  obtain ⟨slashes, text⟩ := toList_absolute p
  rw [text]
  refine List.IsSuffix.trans ?_ (List.suffix_append _ _)
  rw [h, ofNames, String.toList_ofList, List.reverse_append, List.reverse_reverse]
  cases above with
  | nil => simp [join_split]
  | cons s above =>
    have filled : (s :: above).reverse ≠ [] := by simp
    rw [join_append ['/'] filled (split_ne_nil '/' tail), join_split]
    exact ⟨'/' :: Text.join ['/'] (s :: above).reverse, by simp⟩

end Path

/-! ## Tails -/

namespace AliasRoot

/-- The tail of a specifier is made of names. -/
def PlainTail (r : AliasRoot) (specifier : String) : Prop :=
  ∀ s ∈ split '/' (r.tail specifier), Path.IsName s

/-- A specifier without the mark is its tail behind leading steps and before trailing slashes. -/
theorem tail_split (r : AliasRoot) (specifier : String) : ∃ steps n,
    (afterStart? r.mark.toList specifier.toList).getD specifier.toList =
        steps ++ r.tail specifier ++ List.replicate n '/' ∧
      (steps = [] ∨ steps.getLast? = some '/') := by
  simp only [tail]
  generalize (afterStart? r.mark.toList specifier.toList).getD specifier.toList = text
  obtain ⟨steps, whole, start⟩ := Specifier.dropRelative_split text
  obtain ⟨n, ending⟩ := Specifier.dropEnd_split (Specifier.dropRelative text)
  refine ⟨steps, n, ?_, start⟩
  rw [List.append_assoc, ← ending]
  exact whole

instance (r : AliasRoot) (specifier : String) : Decidable (r.PlainTail specifier) :=
  inferInstanceAs (Decidable (∀ s ∈ split '/' (r.tail specifier), Path.IsName s))

/-- The shorter one of two tails. -/
def sharedTail (r : AliasRoot) (a b : String) : List Char :=
  if (r.tail a).length ≤ (r.tail b).length then r.tail a else r.tail b

variable {r : AliasRoot} {a b specifier : String}

theorem PlainTail.tail_ne_nil (h : r.PlainTail specifier) : r.tail specifier ≠ [] := by
  intro none
  refine (h [] ?_).some rfl
  simp [none, split_of_not_mem]

/-- Matching tails end like the shorter one. -/
theorem sharedTail_suffix (h : r.matchesPath a b = true) :
    '/' :: r.sharedTail a b <:+ '/' :: r.tail a := by
  simp only [matchesPath, Bool.and_eq_true, Bool.or_eq_true, Bool.not_eq_true',
    List.isEmpty_eq_false_iff, beq_iff_eq, List.isSuffixOf_iff_suffix] at h
  obtain ⟨-, (same | ends) | ends⟩ := h
  · simp [sharedTail, same]
  · rw [sharedTail, if_neg (Nat.not_le.mpr ends.length_le)]
    exact ends.trans (List.suffix_cons _ _)
  · simp [sharedTail, Nat.le_of_succ_le ends.length_le]

end AliasRoot

namespace Project

variable {p : Project} {importer base a b specifier : String} {f g : SourceFile}

/-- The path that a specifier leads to ends with its tail. -/
theorem suffix_of_basePath? (h : p.basePath? importer specifier = some base)
    (plain : p.root.PlainTail specifier) : '/' :: p.root.tail specifier <:+ base.toList := by
  -- What is joined to a directory is the specifier without the mark, which the tail is cut from.
  obtain ⟨d, rfl⟩ : ∃ d, base = Path.absolute (Path.join d (String.ofList
      ((afterStart? p.root.mark.toList specifier.toList).getD specifier.toList))) := by
    unfold basePath? at h
    split at h
    · next below found => exact ⟨_, by simpa [found] using h.symm⟩
    · next found =>
      split at h
      · exact ⟨_, by simpa [found] using h.symm⟩
      · cases h
  obtain ⟨steps, n, whole, start⟩ := p.root.tail_split specifier
  rw [whole]
  generalize below : steps ++ p.root.tail specifier ++ List.replicate n '/' = text
  obtain ⟨kept, walk⟩ : ∃ kept, Path.names (Path.join d (String.ofList text)) =
      (split '/' text).foldl (Path.push true) kept := by
    cases rooted : Path.isAbsolute (String.ofList text) with
    | true => exact ⟨[], by rw [Path.join_of_isAbsolute rooted, Path.names_ofList]⟩
    | false => exact ⟨_, by rw [Path.names_join rooted, String.toList_ofList]⟩
  obtain ⟨above, walked⟩ := Path.exists_walk plain start n kept
  rw [below, ← walk] at walked
  exact Path.suffix_absolute walked

/-- Two specifiers of one path match. -/
theorem matchesPath_of_basePath? (ha : p.basePath? importer a = some base)
    (hb : p.basePath? importer b = some base) (plainA : p.root.PlainTail a)
    (plainB : p.root.PlainTail b) : p.root.matchesPath a b = true := by
  have endsA := suffix_of_basePath? ha plainA
  have endsB := suffix_of_basePath? hb plainB
  simp only [AliasRoot.matchesPath, Bool.and_eq_true, Bool.or_eq_true, Bool.not_eq_true',
    List.isEmpty_eq_false_iff, beq_iff_eq, List.isSuffixOf_iff_suffix]
  refine ⟨⟨plainA.tail_ne_nil, plainB.tail_ne_nil⟩, ?_⟩
  rcases List.suffix_or_suffix_of_suffix endsA endsB with inside | inside
  · rcases List.suffix_cons_iff.mp inside with same | shorter
    · exact .inl (.inl (List.cons.inj same).2)
    · exact .inr shorter
  · rcases List.suffix_cons_iff.mp inside with same | shorter
    · exact .inl (.inl (List.cons.inj same).2.symm)
    · exact .inl (.inr shorter)

/-- What the path of a module may have behind the path that a specifier leads to. -/
def endings : List String :=
  "" :: triedExtensions ++ triedExtensions.map ("/index" ++ ·)

/-- A module that some specifier with this tail may mean. -/
def MayMean (tail : List Char) (f : SourceFile) : Prop :=
  ∃ ending ∈ endings, '/' :: tail ++ ending.toList <:+ f.path.toList

instance (tail : List Char) (f : SourceFile) : Decidable (MayMean tail f) :=
  inferInstanceAs (Decidable (∃ ending ∈ endings, '/' :: tail ++ ending.toList <:+ f.path.toList))

theorem candidates_eq (h : ∃ front c, c ≠ '/' ∧ base.toList = front ++ [c]) :
    candidates base = endings.map (base ++ ·) := by
  obtain ⟨front, c, other, text⟩ := h
  have index (e : String) :
      Path.join base ("index" ++ e) = base ++ ("/index" ++ e) := by
    have relative : Path.isAbsolute ("index" ++ e) = false := by simp [Path.isAbsolute]
    rw [← String.toList_inj]
    simp [Path.join, relative, text, other]
  simp [candidates, endings, index, triedExtensions]

/-- What a specifier leads to is among the modules that its tail, or the end of its tail, may
mean. -/
theorem mayMean_of_matchesPath (h : p.resolve? importer a = some g)
    (plain : p.root.PlainTail a) (same : p.root.matchesPath a b = true) :
    g ∈ p.files ∧ MayMean (p.root.sharedTail a b) g := by
  unfold resolve? at h
  split at h
  · next base led =>
    obtain ⟨c, tried, found⟩ := List.exists_of_findSome?_eq_some h
    have ends := suffix_of_basePath? led plain
    obtain ⟨rest, c', other, text⟩ := Path.join_end (split_ne_nil '/' (p.root.tail a)) plain
    rw [join_split] at text
    have filled : ∃ front c, c ≠ '/' ∧ base.toList = front ++ [c] := by
      obtain ⟨above, whole⟩ := ends
      exact ⟨above ++ '/' :: rest, c', other, by simp [← whole, text]⟩
    rw [candidates_eq filled] at tried
    obtain ⟨ending, known, rfl⟩ := List.mem_map.mp tried
    refine ⟨List.mem_of_find?_eq_some found, ending, known, ?_⟩
    rw [path_of_find? found, String.toList_append]
    obtain ⟨above, whole⟩ := (AliasRoot.sharedTail_suffix same).trans ends
    exact ⟨above, by rw [← whole, List.append_assoc]⟩
  · cases h

end Project

end ModuleRepair
