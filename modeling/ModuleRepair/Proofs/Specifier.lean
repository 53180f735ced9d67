import ModuleRepair.Project.Index
import ModuleRepair.Proofs.Path.Normal

/-!
# From a path to a specifier and back

The specifier of a module leaves out the extension of its path, and the name of an index module. The
way back tries some extensions, and index modules. It comes to the path again if the extension is
one of those that are tried (`mem_candidates`).
-/
namespace ModuleRepair

open ModuleRepair.Text ModuleRepair.Path

/-- What stands behind the last place of a character. -/
theorem reverse_takeWhile_append {c : Char} (front : List Char) {tail : List Char} (h : c ∉ tail) :
    ((front ++ c :: tail).reverse.takeWhile (· != c)).reverse = tail := by
  have split : (front ++ c :: tail).reverse = tail.reverse ++ c :: front.reverse := by simp
  rw [split, List.takeWhile_append_of_pos fun d hd => ?_]
  · simp
  · have : d ≠ c := fun same => h (by simpa [same] using hd)
    simpa using this

/-- A text is cut at the last place of a character, if there is one. -/
theorem eq_append_of_takeWhile (c : Char) (s : List Char) :
    (s.reverse.takeWhile (· != c)).reverse = s ∨
      ∃ front, s = front ++ c :: (s.reverse.takeWhile (· != c)).reverse := by
  have whole := congrArg List.reverse
    (List.takeWhile_append_dropWhile (p := (· != c)) (l := s.reverse))
  rw [List.reverse_append, List.reverse_reverse] at whole
  have first := List.head?_dropWhile_not (· != c) s.reverse
  cases rest : s.reverse.dropWhile (· != c) with
  | nil => exact .inl (by simpa [rest] using whole)
  | cons d rest' =>
    obtain rfl : d = c := by simpa [rest] using first
    exact .inr ⟨rest'.reverse, by simpa [rest] using whole.symm⟩

theorem not_mem_takeWhile (c : Char) (s : List Char) :
    c ∉ (s.reverse.takeWhile (· != c)).reverse := by
  intro there
  have other := List.all_eq_true.mp List.all_takeWhile c (List.mem_reverse.mp there)
  simp at other

namespace Path

theorem IsName.front {x rest : Segment} (h : IsName (x ++ rest)) {c : Char} (hc : c ∈ x)
    (other : c ≠ '.') : IsName x where
  some := List.ne_nil_of_mem hc
  notDot dot := by
    rw [dot] at hc
    exact other (List.mem_singleton.mp hc)
  notParent both := by
    rw [both] at hc
    exact other (by simpa [parent] using hc)
  noSlash slash := h.noSlash (List.mem_append_left rest slash)

/-- What is cut from a segment behind its leading dots: all of it, or what follows the last dot
behind another character. -/
theorem segment_split (s : Segment) :
    ∃ stem tail, s.dropWhile (· == '.') = stem ∧
      (stem.reverse.takeWhile (· != '.')).reverse = tail ∧ (tail.length = stem.length ∨
        ∃ x c, s = x ++ '.' :: tail ∧ '.' ∉ tail ∧ c ∈ x ∧ c ≠ '.') := by
  refine ⟨_, _, rfl, rfl, ?_⟩
  have cutLast := eq_append_of_takeWhile '.' (s.dropWhile (· == '.'))
  have noDot := not_mem_takeWhile '.' (s.dropWhile (· == '.'))
  have start := List.head?_dropWhile_not (· == '.') s
  have whole := List.takeWhile_append_dropWhile (p := (· == '.')) (l := s)
  generalize s.takeWhile (· == '.') = dots at whole
  generalize s.dropWhile (· == '.') = stem at *
  generalize (stem.reverse.takeWhile (· != '.')).reverse = tail at *
  rcases cutLast with same | ⟨x, rfl⟩
  · exact .inl (by rw [same])
  · cases x with
    | nil => simp at start
    | cons c x =>
      refine .inr ⟨dots ++ c :: x, c, ?_, noDot, by simp, by simpa using start⟩
      rw [← whole, List.append_assoc]

/-- A name with an extension is a shorter name and the extension. -/
theorem extension_split {slashes : Nat} {front : List Segment} {last : Segment} {p : String}
    (h : Normal slashes (front ++ [last]) p) (extended : extension p ≠ "") :
    ∃ x tail, last = x ++ '.' :: tail ∧ '.' ∉ tail ∧ IsName x ∧
      (extension p).toList = '.' :: tail ∧
      p.toList = (withoutExtension p).toList ++ '.' :: tail := by
  obtain ⟨before, text⟩ := h.text_concat
  have name := h.isName last (by simp)
  have parts : cut p.toList = (before ++ ['/'], last) := by
    rw [text, cut_append_slash before name.noSlash]
  obtain ⟨stem, tail, hstem, htail, cutLast⟩ := segment_split last
  simp only [extension, withoutExtension, cutExtension, parts, hstem, htail] at extended ⊢
  -- The extension is cut behind the leading dots, so a name of dots only has none.
  split at extended
  · exact absurd rfl extended
  · next shorter =>
    obtain ⟨x, c, rfl, noDot, hc, other⟩ :=
      cutLast.resolve_left fun same => shorter (by simp [same])
    rw [if_neg shorter]
    refine ⟨x, tail, rfl, noDot, name.front hc other, by simp, ?_⟩
    have split : p.toList = (before ++ '/' :: x) ++ '.' :: tail := by
      rw [text]
      simp
    have length : p.toList.length - tail.length - 1 = (before ++ '/' :: x).length := by
      rw [split]
      simp
      omega
    rw [String.toList_ofList, length]
    exact split.trans (by rw [split, List.take_left])

end Path

namespace Specifier

/-- Without an extension that is known, unless it is one of a declaration file. -/
theorem withoutExtension_append {front tail : List Char} (noDot : '.' ∉ tail)
    (known : String.ofList tail ∈ ["ts", "tsx", "js", "jsx"])
    (notDeclaration : ¬ ".d".toList <:+ front) :
    withoutExtension (front ++ '.' :: tail) = front := by
  obtain ⟨last, listed⟩ : (front ++ '.' :: tail).getLast? ≠ some '\n' ∧
      extensions.contains (String.ofList tail) = true := by
    simp only [List.mem_cons, List.not_mem_nil, or_false, ← String.toList_inj,
      String.toList_ofList] at known
    rcases known with rfl | rfl | rfl | rfl <;> exact ⟨by simp, by decide⟩
  have shorter : (front ++ '.' :: tail).length - tail.length - 1 = front.length := by
    simp
    omega
  have isSuffix : ".d".toList.isSuffixOf front = false :=
    Bool.eq_false_iff.mpr fun ends => notDeclaration (List.isSuffixOf_iff_suffix.mp ends)
  rw [withoutExtension, if_neg last, dropExtension, reverse_takeWhile_append front noDot]
  dsimp only
  rw [shorter, List.take_left, isSuffix, listed]
  simp
  omega

/-- The name of an index module below others is left out. -/
theorem withoutIndex_join (front : List Segment) {x : Segment} (hx : '/' ∉ x) :
    front ≠ [] ∧ x = "index".toList ∧
        withoutIndex (Text.join ['/'] (front ++ [x])) = Text.join ['/'] front ∨
      withoutIndex (Text.join ['/'] (front ++ [x])) = Text.join ['/'] (front ++ [x]) := by
  unfold withoutIndex
  split
  · next isIndex =>
    obtain ⟨above, text⟩ := List.isSuffixOf_iff_suffix.mp isIndex
    have cutIndex : cut (Text.join ['/'] (front ++ [x])) = (above ++ ['/'], "index".toList) := by
      rw [← text]
      exact cut_append_slash above (s := "index".toList) (by decide)
    obtain ⟨before, joined, ⟨rfl, rfl⟩ | ⟨filled, rfl⟩⟩ := join_concat front x
    · have whole : '/' ∈ x := by
        rw [show x = above ++ "/index".toList from joined.symm.trans text.symm]
        simp
      exact absurd whole hx
    · have split : Text.join ['/'] (front ++ [x]) = Text.join ['/'] front ++ '/' :: x := by
        rw [joined]
        simp
      rw [split, cut_append_slash _ hx] at cutIndex
      obtain ⟨rfl⟩ : x = "index".toList := congrArg Prod.snd cutIndex
      refine .inl ⟨filled, rfl, ?_⟩
      have length : (Text.join ['/'] front ++ '/' :: "index".toList).length - 6 =
          (Text.join ['/'] front).length := by
        simp
      rw [split, length, List.take_left]
  · exact .inr rfl

end Specifier

namespace AliasRoot

/-- The path lies below the directory, and its name ends with an extension that is tried and is not
that of a declaration file. -/
structure PlainlyNamed (r : AliasRoot) (path : String) : Prop where
  extension : Path.extension path ∈ Project.triedExtensions
  notDeclaration : ¬ ".d".toList <:+ (Path.withoutExtension path).toList
  noBackslash : '\\' ∉ (Path.relative path r.directory).toList
  below : path ≠ r.directory
  slashes : rootSlashes path.toList = rootSlashes r.directory.toList

theorem forwardSlashes_eq {p : String} (h : '\\' ∉ p.toList) : forwardSlashes p = p := by
  have same : p.toList.map (fun c => if c == '\\' then '/' else c) = p.toList := by
    refine (List.map_congr_left fun c hc => ?_).trans (List.map_id _)
    have other : c ≠ '\\' := fun same => h (same ▸ hc)
    simp [other]
  rw [forwardSlashes, same, String.ofList_toList]

theorem afterCommon_eq {as bs cs ds : List Segment} (h : afterCommon as bs = (cs, ds)) :
    ∃ common, as = common ++ cs ∧ bs = common ++ ds := by
  induction as generalizing bs with
  | nil =>
    cases bs <;> obtain ⟨rfl, rfl⟩ := Prod.mk.inj h <;> exact ⟨[], rfl, rfl⟩
  | cons a as ih =>
    cases bs with
    | nil =>
      obtain ⟨rfl, rfl⟩ := Prod.mk.inj h
      exact ⟨[], rfl, rfl⟩
    | cons b bs =>
      simp only [afterCommon] at h
      split at h
      · next same =>
        obtain ⟨common, rfl, rfl⟩ := ih h
        exact ⟨a :: common, rfl, same ▸ rfl⟩
      · obtain ⟨rfl, rfl⟩ := Prod.mk.inj h
        exact ⟨[], rfl, rfl⟩

theorem join_parent (rest : List Segment) :
    Text.join ['/'] (parent :: rest) = "..".toList ∨
      "../".toList.isPrefixOf (Text.join ['/'] (parent :: rest)) = true := by
  cases rest with
  | nil => exact .inl (join_singleton ..)
  | cons s rest => exact .inr (by simp [join_cons_cons, parent])

/-- A path with a specifier lies below the directory. -/
theorem below_of_specifier? {r : AliasRoot} {slashes slashes' : Nat} {names root : List Segment}
    {path : String} (hp : Normal slashes names path) (hr : Normal slashes' root r.directory)
    (plain : r.PlainlyNamed path) (h : (r.specifier? path).isSome = true) :
    ∃ below, below ≠ [] ∧ names = root ++ below ∧ slashes = slashes' := by
  have same : slashes = slashes' := by
    have slashes := plain.slashes
    rwa [hp.text_eq, hr.text_eq, rootSlashes_text hp.slashes_eq hp.isName,
      rootSlashes_text hr.slashes_eq hr.isName] at slashes
  subst same
  cases parts : afterCommon names root with
  | mk below up =>
    obtain ⟨common, rfl, rfl⟩ := afterCommon_eq parts
    cases up with
    | nil =>
      refine ⟨below, fun none => ?_, by simp, rfl⟩
      subst none
      exact plain.below (String.toList_inj.mp (by rw [hp.text_eq, hr.text_eq]))
    | cons s up =>
      -- A step up would come first, and such a path has no specifier.
      simp only [specifier?, forwardSlashes_eq plain.noBackslash] at h
      rw [if_pos] at h
      · cases h
      · rw [relative, hp.absoluteSegments, hr.absoluteSegments, parts]
        simpa using join_parent _

theorem join_concat_append (front : List Segment) (x tail : Segment) :
    Text.join ['/'] (front ++ [x ++ tail]) = Text.join ['/'] (front ++ [x]) ++ tail := by
  cases front with
  | nil => simp [join_singleton]
  | cons s front =>
    have filled := List.cons_ne_nil s front
    rw [join_append ['/'] filled (List.cons_ne_nil _ []),
      join_append ['/'] filled (List.cons_ne_nil _ [])]
    simp [join_singleton]

/-- What is left of a plainly named path without its extension is no declaration mark. -/
theorem PlainlyNamed.notDeclaration_below {r : AliasRoot} {slashes : Nat}
    {root front : List Segment} {x tail : Segment} {path : String} (plain : r.PlainlyNamed path)
    (hp : Normal slashes (root ++ (front ++ [x ++ '.' :: tail])) path)
    (text : path.toList = (Path.withoutExtension path).toList ++ '.' :: tail) :
    ¬ ".d".toList <:+ Text.join ['/'] (front ++ [x]) := by
  intro ends
  refine plain.notDeclaration (ends.trans ?_)
  have stem : (Path.withoutExtension path).toList =
      List.replicate slashes '/' ++ Text.join ['/'] (root ++ front ++ [x]) := by
    have whole := text.symm.trans hp.text_eq
    rw [← List.append_assoc root, join_concat_append, ← List.append_assoc] at whole
    exact List.append_cancel_right whole
  rw [stem]
  cases root with
  | nil => exact ⟨_, rfl⟩
  | cons s root =>
    rw [List.append_assoc, join_append ['/'] (List.cons_ne_nil s root) (by simp)]
    exact ⟨List.replicate slashes '/' ++ (Text.join ['/'] (s :: root) ++ ['/']), by simp⟩

/-- Names are no steps up. -/
theorem join_ne_parent {below : List Segment} (filled : below ≠ []) (hb : ∀ s ∈ below, IsName s) :
    ¬(Text.join ['/'] below = "..".toList ∨
      "../".toList.isPrefixOf (Text.join ['/'] below) = true) := by
  have parts := split_join filled fun s hs => (hb s hs).noSlash
  have noName : parent ∉ below := fun there => (hb _ there).notParent rfl
  rintro (up | up)
  · rw [up, show "..".toList = parent from rfl, split_of_not_mem (by decide)] at parts
    exact noName (parts ▸ List.mem_singleton.mpr rfl)
  · obtain ⟨rest, text⟩ := List.isPrefixOf_iff_prefix.mp up
    rw [← text, show "../".toList ++ rest = parent ++ '/' :: rest from rfl,
      split_append_slash, split_of_not_mem (by decide)] at parts
    exact noName (parts ▸ List.mem_append_left _ (List.mem_singleton.mpr rfl))

/-- The specifier of a file, from the names below the directory. -/
theorem specifier?_below {r : AliasRoot} {slashes slashes' : Nat} {root below : List Segment}
    {path : String} (hp : Normal slashes (root ++ below) path)
    (hr : Normal slashes' root r.directory) (filled : below ≠ [])
    (noBackslash : '\\' ∉ Text.join ['/'] below) :
    r.specifier? path = some (r.mark ++ String.ofList
      (Specifier.withoutIndex (Specifier.withoutExtension (Text.join ['/'] below)))) := by
  have seen : (forwardSlashes (Path.relative path r.directory)).toList =
      Text.join ['/'] below := by
    rw [hp.relative_eq hr filled, forwardSlashes_eq (by simpa using noBackslash),
      String.toList_ofList]
  have names : ∀ s ∈ below, IsName s := fun s hs => hp.isName s (List.mem_append_right root hs)
  simp only [specifier?, seen, if_neg (join_ne_parent filled names)]

/-- The specifier of a plainly named module, from the names below the directory. -/
theorem specifier?_eq {r : AliasRoot} {slashes : Nat} {root front : List Segment}
    {x tail : Segment} {path : String}
    (hp : Normal slashes (root ++ (front ++ [x ++ '.' :: tail])) path)
    (hr : Normal slashes root r.directory) (plain : r.PlainlyNamed path)
    (noDot : '.' ∉ tail) (ext : (Path.extension path).toList = '.' :: tail)
    (text : path.toList = (Path.withoutExtension path).toList ++ '.' :: tail) :
    r.specifier? path = some (r.mark ++ String.ofList
      (Specifier.withoutIndex (Text.join ['/'] (front ++ [x])))) := by
  have known : String.ofList tail ∈ ["ts", "tsx", "js", "jsx"] := by
    have tried := plain.extension
    simp only [Project.triedExtensions, List.mem_cons, List.not_mem_nil, or_false,
      ← String.toList_inj, ext, String.toList_ofList] at tried ⊢
    simpa using tried
  have noBackslash := plain.noBackslash
  rw [hp.relative_eq hr (by simp), String.toList_ofList] at noBackslash
  rw [specifier?_below hp hr (by simp) noBackslash, join_concat_append,
    Specifier.withoutExtension_append noDot known (plain.notDeclaration_below hp text)]

/-- A plainly named module has the specifier of some names, and its path is one of those that are
tried for them. -/
theorem exists_stem {r : AliasRoot} {slashes slashes' : Nat} {names root : List Segment}
    {path specifier : String} (hp : Normal slashes names path)
    (hr : Normal slashes' root r.directory) (plain : r.PlainlyNamed path)
    (h : r.specifier? path = some specifier) :
    ∃ stem, stem ≠ [] ∧ (∀ s ∈ stem, IsName s) ∧
      specifier = r.mark ++ String.ofList (Text.join ['/'] stem) ∧
      path ∈ Project.candidates (join r.directory (String.ofList (Text.join ['/'] stem))) := by
  obtain ⟨below, filled, rfl, rfl⟩ := below_of_specifier? hp hr plain (by rw [h]; rfl)
  obtain ⟨front, last, rfl⟩ := below.eq_nil_or_concat.resolve_left filled
  rw [List.concat_eq_append] at hp filled
  have extended : Path.extension path ≠ "" := by
    intro none
    exact absurd (none ▸ plain.extension) (by decide)
  obtain ⟨x, tail, rfl, noDot, hx, ext, text⟩ :=
    extension_split (show Normal slashes ((root ++ front) ++ [last]) path by
      rwa [List.append_assoc]) extended
  obtain rfl := Option.some.inj (h.symm.trans (specifier?_eq hp hr plain noDot ext text))
  have names : ∀ s ∈ front, IsName s := fun s hs => hp.isName s (by simp [hs])
  have last : IsName (x ++ '.' :: tail) := hp.isName _ (by simp)
  rcases Specifier.withoutIndex_join front hx.noSlash with
    ⟨above, rfl, index⟩ | same
  · -- An index module: its name and extension are put behind those of its directory.
    rw [index]
    refine ⟨front, above, names, rfl, ?_⟩
    have base := hr.join_below above names
    have only : ∀ s ∈ ["index".toList ++ '.' :: tail], IsName s := by simpa using last
    have module := base.join_below (List.cons_ne_nil _ []) only
    refine List.mem_append_right _ (List.mem_map.mpr ⟨_, plain.extension, ?_⟩)
    have spelled : "index" ++ Path.extension path =
        String.ofList (Text.join ['/'] ["index".toList ++ '.' :: tail]) := by
      rw [← String.ofList_toList (s := "index" ++ Path.extension path), String.toList_append, ext,
        join_singleton]
    rw [spelled, ← String.toList_inj, module.text_eq, hp.text_eq, List.append_assoc]
  · rw [same]
    have all : ∀ s ∈ front ++ [x], IsName s := fun s hs => by
      rcases List.mem_append.mp hs with hs | hs
      · exact names s hs
      · exact List.mem_singleton.mp hs ▸ hx
    refine ⟨front ++ [x], by simp, all, rfl, ?_⟩
    have base := hr.join_below (by simp) all
    refine List.mem_append_left _ (List.mem_cons_of_mem _
      (List.mem_map.mpr ⟨_, plain.extension, ?_⟩))
    rw [← String.toList_inj, String.toList_append, ext, base.text_eq, hp.text_eq,
      ← List.append_assoc root, ← List.append_assoc root, join_concat_append, List.append_assoc]

/-- **The specifier of a plainly named module leads to it**, as far as extensions and index modules
are tried. -/
theorem mem_candidates {r : AliasRoot} {slashes slashes' : Nat} {names root : List Segment}
    {path specifier : String} (hp : Normal slashes names path)
    (hr : Normal slashes' root r.directory) (plain : r.PlainlyNamed path)
    (h : r.specifier? path = some specifier) :
    ∃ below, specifier = r.mark ++ String.ofList below ∧
      path ∈ Project.candidates (absolute (join r.directory (String.ofList below))) := by
  obtain ⟨stem, filled, names, specifier, tried⟩ := exists_stem hp hr plain h
  refine ⟨_, specifier, ?_⟩
  rwa [(hr.join_below filled names).absolute_eq]

end AliasRoot

end ModuleRepair
