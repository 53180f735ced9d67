import ModuleRepair.Proofs.Export.Surface
import ModuleRepair.Proofs.Project.Load

/-!
# From a specifier back to its module

A specifier stands for several paths that are tried in order. For a plain specifier every module
under one of these paths has that very specifier (`specifier?_of_candidate`). So a module that
shares its specifier with no other one is the only module that can be found, and it is found
(`Project.specifier_leads_back`).
-/
namespace ModuleRepair

open ModuleRepair.Text ModuleRepair.Path ModuleRepair.Script

namespace Specifier

/-- What the specifier of a file leaves out at the end of its path: the extension, to which the mark
of a declaration file belongs. -/
def leftOut (path : String) : String :=
  String.ofList (path.toList.drop (withoutExtension path.toList).length)

/-- Whether a specifier ends with nothing that could be taken for the end of a path: an index
module, the mark of a declaration file, or an extension. -/
structure Plain (specifier : String) : Prop where
  noIndex : ¬ "/index".toList <:+ specifier.toList
  noDeclaration : ¬ ".d".toList <:+ specifier.toList
  noExtension : ∀ e ∈ extensions, ¬ '.' :: e.toList <:+ specifier.toList

theorem Plain.of_append {mark : String} {below : List Char}
    (h : Plain (mark ++ String.ofList below)) : Plain (String.ofList below) := by
  have behind {e : List Char} (there : e <:+ (String.ofList below).toList) :
      e <:+ (mark ++ String.ofList below).toList := by
    rw [String.toList_append]
    exact there.trans (List.suffix_append ..)
  exact ⟨fun there => h.noIndex (behind there), fun there => h.noDeclaration (behind there),
    fun e he there => h.noExtension e he (behind there)⟩

/-- Nothing is left out of what is plain. -/
theorem Plain.withoutIndex_eq {s : List Char} (h : Plain (String.ofList s)) :
    withoutIndex s = s := by
  rw [withoutIndex, if_neg]
  intro ends
  exact h.noIndex (by simpa using List.isSuffixOf_iff_suffix.mp ends)

theorem Plain.withoutExtension_eq {s : List Char} (h : Plain (String.ofList s))
    (noFeed : s.getLast? ≠ some '\n') : withoutExtension s = s := by
  rw [withoutExtension, if_neg noFeed, dropExtension]
  dsimp only
  rw [if_neg]
  intro found
  rw [Bool.and_eq_true, decide_eq_true_eq, List.contains_iff_mem] at found
  obtain ⟨front, text⟩ := (eq_append_of_takeWhile '.' s).resolve_left fun same => by
    rw [same] at found
    exact Nat.lt_irrefl _ found.1
  refine h.noExtension _ found.2 ⟨front, ?_⟩
  rw [String.toList_ofList, String.toList_ofList]
  exact text.symm

theorem withoutIndex_append (s : List Char) : withoutIndex (s ++ "/index".toList) = s := by
  rw [withoutIndex, if_pos (List.isSuffixOf_iff_suffix.mpr (List.suffix_append ..))]
  have length : (s ++ "/index".toList).length - 6 = s.length := by simp
  rw [length, List.take_left]

/-- The extensions that are tried are known, and are no part of a declaration's. -/
theorem exists_tail {e : String} (h : e ∈ Project.triedExtensions) :
    ∃ tail, e = String.ofList ('.' :: tail) ∧ '.' ∉ tail ∧ '/' ∉ tail ∧ '\\' ∉ tail ∧ tail ≠ [] ∧
      String.ofList tail ∈ ["ts", "tsx", "js", "jsx"] := by
  simp only [Project.triedExtensions, List.mem_cons, List.not_mem_nil, or_false] at h
  rcases h with rfl | rfl | rfl | rfl
  · exact ⟨"ts".toList, by decide⟩
  · exact ⟨"tsx".toList, by decide⟩
  · exact ⟨"js".toList, by decide⟩
  · exact ⟨"jsx".toList, by decide⟩

/-- What is left out and tried again is an extension behind no mark of a declaration file. -/
theorem leftOut_tried {path : String} (h : leftOut path ∈ Project.triedExtensions) :
    ∃ front tail, path.toList = front ++ '.' :: tail ∧ '.' ∉ tail ∧
      leftOut path = String.ofList ('.' :: tail) ∧ ¬ ".d".toList <:+ front := by
  have noFeed : path.toList.getLast? ≠ some '\n' := by
    obtain ⟨before, text⟩ : (leftOut path).toList <:+ path.toList := by
      rw [leftOut, String.toList_ofList]
      exact List.drop_suffix _ _
    rw [← text]
    generalize leftOut path = e at h
    simp only [Project.triedExtensions, List.mem_cons, List.not_mem_nil, or_false] at h
    rcases h with rfl | rfl | rfl | rfl <;> simp
  have noDot := not_mem_takeWhile '.' path.toList
  have cutLast := eq_append_of_takeWhile '.' path.toList
  revert h
  simp only [leftOut, withoutExtension, if_neg noFeed, dropExtension]
  generalize (path.toList.reverse.takeWhile (· != '.')).reverse = tail at noDot cutLast
  split
  · next found =>
    rw [Bool.and_eq_true, decide_eq_true_eq] at found
    obtain ⟨front, text⟩ := cutLast.resolve_left fun same => by
      rw [same] at found
      exact Nat.lt_irrefl _ found.1
    rw [text]
    have length : (front ++ '.' :: tail).length - tail.length - 1 = front.length := by
      rw [List.length_append, List.length_cons]
      omega
    rw [length, List.take_left]
    split
    · next ends =>
      obtain ⟨above, rfl⟩ := List.isSuffixOf_iff_suffix.mp ends
      have shorter : ((above ++ ".d".toList).take ((above ++ ".d".toList).length - 2)).length =
          above.length := by
        simp
      rw [shorter, List.append_assoc, List.drop_left]
      intro h
      simp [Project.triedExtensions, ← String.toList_inj] at h
    · next plain =>
      intro _
      refine ⟨front, tail, rfl, noDot, by rw [List.drop_left], fun ends => plain ?_⟩
      exact List.isSuffixOf_iff_suffix.mpr ends
  · intro h
    rw [List.drop_length] at h
    exact absurd h (by decide)

end Specifier

/-- A name with more behind it is a name. -/
theorem Path.IsName.append {x tail : Segment} (h : IsName x) (noSlash : '/' ∉ tail)
    (long : 2 ≤ tail.length) : IsName (x ++ tail) := by
  have some := List.length_pos_iff.mpr h.some
  have longer : 2 < (x ++ tail).length := by
    rw [List.length_append]
    omega
  refine ⟨fun none => ?_, fun dot => ?_, fun both => ?_, fun there => ?_⟩
  · simp [none] at longer
  · simp [dot] at longer
  · simp [both, parent] at longer
  · exact (List.mem_append.mp there).elim h.noSlash noSlash

namespace AliasRoot

variable {r : AliasRoot} {path : String}

/-- Whether a path is a relative path taken from the directory. -/
def Holds (r : AliasRoot) (path : String) : Prop :=
  ∃ below, Path.isAbsolute below = false ∧ path = Path.join r.directory below

/-- The specifier of a module below the directory leaves out the extension of its path. -/
theorem plainlyNamed {slashes slashes' : Nat} {names root : List Segment}
    (hp : Normal slashes names path) (hr : Normal slashes' root r.directory)
    (supported : isSupported path = true) (held : r.Holds path) (noBackslash : '\\' ∉ path.toList)
    (tried : Specifier.leftOut path ∈ Project.triedExtensions) : r.PlainlyNamed path := by
  have filled : names ≠ [] := by
    rintro rfl
    have name := isName_of_isSupported supported
    refine name.some ?_
    rw [last, hp.text_eq]
    rcases hp.slashes_eq with rfl | rfl <;> rfl
  obtain ⟨below, relative, path_eq⟩ := held
  obtain ⟨rfl, rfl⟩ := hp.below_of_join filled hr relative path_eq
  have some : split '/' below.toList ≠ [] := split_ne_nil '/' _
  obtain ⟨front, last, cutLast⟩ := (split '/' below.toList).eq_nil_or_concat.resolve_left some
  have split : Normal slashes ((root ++ front) ++ [last]) path := by
    rwa [cutLast, List.concat_eq_append, ← List.append_assoc] at hp
  obtain ⟨x, tail, -, noDot, -, ext, text⟩ := extension_split split (extension_ne_empty supported)
  obtain ⟨before, tail', text', noDot', left, notDeclaration⟩ := Specifier.leftOut_tried tried
  obtain rfl : tail' = tail := by
    have one := reverse_takeWhile_append before noDot'
    have two := reverse_takeWhile_append (Path.withoutExtension path).toList noDot
    rw [← text'] at one
    rw [← text] at two
    exact one.symm.trans two
  refine ⟨?_, ?_, ?_, fun same => ?_, ?_⟩
  · rwa [← String.ofList_toList (s := Path.extension path), ext, ← left]
  · rwa [← List.append_cancel_right (text'.symm.trans text)]
  · rw [hp.relative_eq hr some, String.toList_ofList, join_split]
    intro there
    rw [path_eq, hr.toList_join relative] at noBackslash
    refine noBackslash (List.mem_append_right _ ?_)
    split
    · exact there
    · simp [there]
  · have longer := hp.absoluteSegments
    rw [same, hr.absoluteSegments] at longer
    exact some (List.append_cancel_left (longer.symm.trans (List.append_nil root).symm))
  · rw [hp.text_eq, hr.text_eq, rootSlashes_text hp.slashes_eq hp.isName,
      rootSlashes_text hr.slashes_eq hr.isName]

section

variable {slashes : Nat} {root stem : List Segment} (hr : Normal slashes root r.directory)
  (filled : stem ≠ []) (names : ∀ s ∈ stem, IsName s)
  (noBackslash : '\\' ∉ Text.join ['/'] stem)
include hr filled names noBackslash

/-- The path that a specifier stands for may be that of a module itself, with an extension that is
known in another letter case only. -/
theorem specifier?_of_itself (plain : Specifier.Plain (String.ofList (Text.join ['/'] stem)))
    (supported :
      isSupported (Path.join r.directory (String.ofList (Text.join ['/'] stem))) = true) :
    r.specifier? (Path.join r.directory (String.ofList (Text.join ['/'] stem))) =
      some (r.mark ++ String.ofList (Text.join ['/'] stem)) := by
  have base := hr.join_below filled names
  have noFeed : (Text.join ['/'] stem).getLast? ≠ some '\n' := by
    intro feed
    obtain ⟨front, x, rfl⟩ := stem.eq_nil_or_concat.resolve_left filled
    rw [List.concat_eq_append] at *
    rw [← List.append_assoc] at base
    obtain ⟨-, tail, -, -, -, ext, text⟩ := extension_split base (extension_ne_empty supported)
    have ends : ('.' :: tail).getLast? = some '\n' := by
      have relative :
          Path.isAbsolute (String.ofList (Text.join ['/'] (front ++ [x]))) = false := by
        simpa [Path.isAbsolute] using head?_join names
      have whole := congrArg List.getLast? (text.symm.trans (hr.toList_join relative))
      rw [List.getLast?_append, List.getLast?_cons, Option.some_or, String.toList_ofList] at whole
      rw [List.getLast?_cons, whole]
      split <;> simp [List.getLast?_append, List.getLast?_cons, feed]
    obtain ⟨before, feeds⟩ := List.getLast?_eq_some_iff.mp ends
    rw [feeds] at ext
    simp [isSupported_append_feed ext] at supported
  rw [specifier?_below base hr filled noBackslash, plain.withoutExtension_eq noFeed,
    plain.withoutIndex_eq]

/-- An extension that is tried is left out again. -/
theorem specifier?_of_extended (plain : Specifier.Plain (String.ofList (Text.join ['/'] stem)))
    {e : String} (he : e ∈ Project.triedExtensions) :
    r.specifier? (Path.join r.directory (String.ofList (Text.join ['/'] stem)) ++ e) =
      some (r.mark ++ String.ofList (Text.join ['/'] stem)) := by
  have base := hr.join_below filled names
  obtain ⟨tail, rfl, noDot, noSlash, clean, some, known⟩ := Specifier.exists_tail he
  obtain ⟨front, x, rfl⟩ := stem.eq_nil_or_concat.resolve_left filled
  rw [List.concat_eq_append] at *
  have name : IsName (x ++ '.' :: tail) := by
    refine (names x (by simp)).append (by simp [noSlash]) ?_
    exact Nat.succ_le_succ (List.length_pos_iff.mpr some)
  have path : Normal slashes (root ++ (front ++ [x ++ '.' :: tail]))
      (Path.join r.directory (String.ofList (Text.join ['/'] (front ++ [x]))) ++
        String.ofList ('.' :: tail)) := by
    refine ⟨?_, hr.slashes_eq, fun s hs => ?_⟩
    · rw [String.toList_append, base.text_eq, String.toList_ofList, ← List.append_assoc,
        ← List.append_assoc root, join_concat_append, List.append_assoc]
    · simp only [List.mem_append, List.mem_singleton] at hs
      rcases hs with hs | hs | rfl
      · exact hr.isName s hs
      · exact names s (by simp [hs])
      · exact name
  rw [specifier?_below path hr (by simp), join_concat_append,
    Specifier.withoutExtension_append noDot known (by simpa using plain.noDeclaration),
    plain.withoutIndex_eq]
  rw [join_concat_append]
  simp [noBackslash, clean]

/-- The name of an index module is left out with its extension. -/
theorem specifier?_of_index {e : String} (he : e ∈ Project.triedExtensions) :
    r.specifier? (Path.join (Path.join r.directory (String.ofList (Text.join ['/'] stem)))
      ("index" ++ e)) = some (r.mark ++ String.ofList (Text.join ['/'] stem)) := by
  have base := hr.join_below filled names
  obtain ⟨tail, rfl, noDot, noSlash, clean, some, known⟩ := Specifier.exists_tail he
  have only : ∀ s ∈ ["index".toList ++ '.' :: tail], IsName s := by
    have index : IsName "index".toList := ⟨by decide, by decide, by decide, by decide⟩
    have long : 2 ≤ ('.' :: tail).length := Nat.succ_le_succ (List.length_pos_iff.mpr some)
    have bare : '/' ∉ '.' :: tail := by simpa using noSlash
    simpa using index.append bare long
  have module := base.join_below (List.cons_ne_nil _ []) only
  have spelled : "index" ++ String.ofList ('.' :: tail) =
      String.ofList (Text.join ['/'] ["index".toList ++ '.' :: tail]) := by
    rw [← String.toList_inj, String.toList_append, join_singleton]
    simp
  rw [← spelled, List.append_assoc] at module
  have below : Text.join ['/'] (stem ++ ["index".toList ++ '.' :: tail]) =
      (Text.join ['/'] stem ++ "/index".toList) ++ '.' :: tail := by
    rw [join_concat_append, join_append ['/'] filled (List.cons_ne_nil _ []), join_singleton]
    simp
  have noMark : ¬ ".d".toList <:+ Text.join ['/'] stem ++ "/index".toList := by
    rintro ⟨above, text⟩
    have ends := congrArg List.getLast? text
    simp at ends
  rw [specifier?_below module hr (by simp), below,
    Specifier.withoutExtension_append noDot known noMark, Specifier.withoutIndex_append]
  rw [below]
  simp [noBackslash, clean]

/-- **A plain specifier is that of every module under a path that is tried for it.** -/
theorem specifier?_of_candidate {c : String}
    (plain : Specifier.Plain (String.ofList (Text.join ['/'] stem)))
    (tried : c ∈ Project.candidates (Path.join r.directory (String.ofList (Text.join ['/'] stem))))
    (supported : isSupported c = true) :
    r.specifier? c = some (r.mark ++ String.ofList (Text.join ['/'] stem)) := by
  simp only [Project.candidates, List.mem_append, List.mem_cons, List.mem_map] at tried
  rcases tried with (rfl | ⟨e, he, rfl⟩) | ⟨e, he, rfl⟩
  · exact specifier?_of_itself hr filled names noBackslash plain supported
  · exact specifier?_of_extended hr filled names noBackslash plain he
  · exact specifier?_of_index hr filled names noBackslash he

end

end AliasRoot

namespace Project

/-- Every path that is tried starts with the base path. -/
theorem prefix_of_candidate {base c : String} (h : c ∈ candidates base) :
    base.toList <+: c.toList := by
  simp only [candidates, List.mem_append, List.mem_cons, List.mem_map] at h
  rcases h with (rfl | ⟨e, -, rfl⟩) | ⟨e, -, rfl⟩
  · exact List.prefix_refl _
  · rw [String.toList_append]
    exact List.prefix_append ..
  · have relative : Path.isAbsolute ("index" ++ e) = false := by simp [Path.isAbsolute]
    rw [Path.join, relative]
    split
    · cases ‹false = true›
    · split <;> simp only [String.toList_append, List.append_assoc] <;> exact List.prefix_append ..

theorem findSome?_eq_of_only {α β : Type} {f : α → Option β} {xs : List α} {b : β}
    (only : ∀ x ∈ xs, ∀ c, f x = some c → c = b) (found : ∃ x ∈ xs, f x = some b) :
    xs.findSome? f = some b := by
  obtain ⟨x, hx, fx⟩ := found
  cases first : xs.findSome? f with
  | none => simp [List.findSome?_eq_none_iff.mp first x hx] at fx
  | some c =>
    obtain ⟨y, hy, fy⟩ := List.exists_of_findSome?_eq_some first
    rw [only y hy c fy]

variable {d : Disk} {directory sourceRoot mark : String} {files : List String} {mode : IndexMode}
  {p : Project} {notices : List Notice} {f : SourceFile} {s : String}

/-- **A plain specifier of one module only leads back to it**, from every importing file and also
when it is looked up as it stands: for every module below the source root whose extension is one of
those that are tried, and whose path has no backslash. -/
theorem specifier_leads_back
    (loaded : load d directory sourceRoot mark files mode = .ok (p, notices)) (hf : f ∈ p.files)
    (held : p.root.Holds f.path) (tried : Specifier.leftOut f.path ∈ triedExtensions)
    (noBackslash : '\\' ∉ f.path.toList) (named : f.specifier? = some s)
    (plain : Specifier.Plain s) (only : ∀ g ∈ p.files, g.specifier? = some s → g = f)
    (importer : String) :
    p.resolve? importer s = some f ∧ p.locate? s = some f := by
  have located := located_load loaded
  have supported (g : SourceFile) (hg : g ∈ p.files) : isSupported g.path = true :=
    ((readFrom_load loaded).read g hg).1.1
  obtain ⟨sameRoot, slashes, names, normal⟩ := located.file f hf
  obtain ⟨slashes', root, normalRoot⟩ := located.root
  have plainly := AliasRoot.plainlyNamed normal normalRoot (supported f hf) held noBackslash tried
  rw [SourceFile.specifier?, sameRoot] at named
  obtain ⟨stem, filled, stemNames, rfl, candidate⟩ :=
    AliasRoot.exists_stem normal normalRoot plainly named
  have base := normalRoot.join_below filled stemNames
  constructor
  · have clean : '\\' ∉ Text.join ['/'] stem := by
      intro there
      refine noBackslash ((prefix_of_candidate candidate).subset ?_)
      have relative : Path.isAbsolute (String.ofList (Text.join ['/'] stem)) = false := by
        simpa [Path.isAbsolute] using head?_join stemNames
      rw [normalRoot.toList_join relative, String.toList_ofList]
      refine List.mem_append_right _ ?_
      split <;> simp [there]
    rw [resolve?, basePath?_mark, base.absolute_eq]
    refine findSome?_eq_of_only (fun c hc g found => ?_)
      ⟨f.path, candidate, (ordered_load loaded).find?_of_mem hf⟩
    have hg : g ∈ p.files := List.mem_of_find?_eq_some found
    obtain rfl := path_of_find? found
    refine only g hg ?_
    rw [SourceFile.specifier?, (located.file g hg).1]
    exact AliasRoot.specifier?_of_candidate normalRoot filled stemNames clean plain.of_append hc
      (supported g hg)
  · have first :
        p.findSpecifier? (p.root.mark ++ String.ofList (Text.join ['/'] stem)) = some f := by
      unfold findSpecifier?
      cases found : p.files.find?
          (·.specifier? = some (p.root.mark ++ String.ofList (Text.join ['/'] stem))) with
      | none =>
        refine absurd ?_ (List.find?_eq_none.mp found f hf)
        simpa [SourceFile.specifier?, sameRoot] using named
      | some g =>
        rw [only g (List.mem_of_find?_eq_some found) (by simpa using List.find?_some found)]
    rw [locate?, first]

/-- The index module of a directory has a specifier without the name of the index. -/
theorem cart_leads_back : ∃ f ∈ shelfProject.files, f.path = "/app/src/cart/index.ts" ∧
    f.specifier? = some "@/cart" ∧
    shelfProject.resolve? "/app/src/pages/shop.tsx" "@/cart" = some f ∧
    shelfProject.locate? "@/cart" = some f := by
  refine ⟨_, List.mem_cons_self, by decide +kernel, by decide +kernel, ?_⟩
  have plain : Specifier.Plain "@/cart" := ⟨by decide, by decide, by decide⟩
  exact specifier_leads_back load_shelf List.mem_cons_self
    ⟨"cart/index.ts", by decide, by decide +kernel⟩ (by decide +kernel) (by decide)
    (by decide +kernel) plain (by decide +kernel) _

end Project

end ModuleRepair
