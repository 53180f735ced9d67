import Mathlib.Data.List.Perm.Subperm
import ModuleRepair.Proofs.Disk.Rewrites
import ModuleRepair.Proofs.Distinct
import ModuleRepair.Proofs.Path.Joined
import ModuleRepair.Proofs.Text.Front

/-!
# What a walk through a tree finds

A walk goes down from directory to directory and decides at each entry alone whether to go on.
`Finds` follows one way of it down to a file. No way is too long for the walk (`Finds.length_le`),
and the decisions along a way make up a condition on the whole of it (`finds_iff`). So the modules of
a tree are known by their paths (`mem_collectFiles`), and rewriting files adds no others.
-/
namespace ModuleRepair

open ModuleRepair.Text ModuleRepair.Path ModuleRepair.Script

/-! ## Paths in order -/

theorem mem_inPathOrder {paths : List String} {path : String} :
    path ∈ inPathOrder paths ↔ path ∈ paths :=
  List.mem_mergeSort

theorem mem_sortedPaths {paths : List String} {path : String} :
    path ∈ sortedPaths paths ↔ path ∈ paths := by
  rw [sortedPaths, mem_inPathOrder, List.mem_eraseDups]

theorem nodup_sortedPaths (paths : List String) : (sortedPaths paths).Nodup :=
  (List.mergeSort_perm _ _).nodup_iff.mpr (nodup_eraseDups paths)

theorem pairwise_inPathOrder {paths : List String} (once : paths.Nodup) :
    (inPathOrder paths).Pairwise (· < ·) := by
  have sorted : (inPathOrder paths).Pairwise (· ≤ ·) := by
    refine (List.pairwise_mergeSort ?_ ?_ _).imp of_decide_eq_true
    · intro a b c ab bc
      exact decide_eq_true (Std.le_trans (of_decide_eq_true ab) (of_decide_eq_true bc))
    · intro a b
      simpa using Std.le_total
  have nodup : (inPathOrder paths).Nodup := (List.mergeSort_perm _ _).nodup_iff.mpr once
  exact (sorted.and nodup).imp fun ⟨before, other⟩ => Std.lt_of_le_of_ne before other

/-- Neither the order nor the number of repetitions is to be seen behind sorting. -/
theorem sortedPaths_congr {paths paths' : List String}
    (same : ∀ path, path ∈ paths ↔ path ∈ paths') : sortedPaths paths = sortedPaths paths' := by
  have perm : (sortedPaths paths).Perm (sortedPaths paths') := by
    rw [List.perm_ext_iff_of_nodup (nodup_sortedPaths _) (nodup_sortedPaths _)]
    intro path
    rw [mem_sortedPaths, mem_sortedPaths, same]
  have ordered (paths : List String) : (sortedPaths paths).Pairwise (· < ·) :=
    pairwise_inPathOrder (nodup_eraseDups paths)
  exact perm.eq_of_pairwise (fun a b _ _ before after => absurd after (String.lt_asymm before))
    (ordered paths) (ordered paths')

/-! ## Entries of a directory -/

theorem isName_toList_iff {name : String} :
    IsName name.toList ↔ name ≠ "" ∧ name ≠ "." ∧ name ≠ ".." ∧ '/' ∉ name.toList := by
  have none : name = "" ↔ name.toList = [] := by rw [← String.toList_inj]; rfl
  have dot : name = "." ↔ name.toList = ['.'] := by rw [← String.toList_inj]; rfl
  have both : name = ".." ↔ name.toList = parent := by rw [← String.toList_inj]; rfl
  rw [ne_eq, ne_eq, ne_eq, none, dot, both]
  exact ⟨fun h => ⟨h.some, h.notDot, h.notParent, h.noSlash⟩, fun ⟨a, b, c, e⟩ => ⟨a, b, c, e⟩⟩

theorem belowDirectory?_eq_some_iff {directory path below : String} :
    belowDirectory? directory path = some below ↔
      path = (if directory = "/" then directory else directory ++ "/") ++ below := by
  simp only [belowDirectory?, Option.map_eq_some_iff, afterStart?_eq_some_iff]
  constructor
  · intro ⟨rest, text, below_eq⟩
    rw [← String.toList_inj, text, String.toList_append, ← below_eq, String.toList_ofList]
  · intro text
    exact ⟨below.toList, by rw [text, String.toList_append], String.ofList_toList⟩

/-- No path with names is the root. -/
theorem Path.ofNames_cons_ne_root {s : Segment} (hs : IsName s) (above : List Segment) :
    ofNames (s :: above) ≠ "/" := by
  intro root
  obtain ⟨front, c, other, text⟩ := ofNames_cons_end hs above
  rw [root] at text
  have last := congrArg List.getLast? text
  simp only [List.getLast?_append, List.getLast?_singleton, Option.some_or] at last
  exact other (Option.some.inj last).symm

/-- A node that is found is listed. -/
theorem Disk.mem_of_node? {d : Disk} {path : String} {node : Node} (notRoot : path ≠ "/")
    (found : d.node? path = some node) : (path, node) ∈ d.nodes := by
  rw [node?, if_neg notRoot] at found
  obtain ⟨front, back, nodes, -⟩ := List.lookup_eq_some_iff.mp found
  rw [nodes]
  exact List.mem_append_right front List.mem_cons_self

section

variable {d : Disk} {above : List Segment} (ha : ∀ s ∈ above, IsName s)
include ha

/-- A path lies right in a directory if it has one name more. -/
theorem entryName?_eq_some_iff {path name : String} :
    entryName? (ofNames above) path = some name ↔
      IsName name.toList ∧ path = ofNames (name.toList :: above) := by
  have inside : (if ofNames above = "/" then ofNames above else ofNames above ++ "/") ++ name =
      ofNames (name.toList :: above) := by
    cases above with
    | nil =>
      rw [ofNames_nil, if_pos rfl, ← String.toList_inj, toList_ofNames_singleton]
      simp
    | cons t above =>
      rw [if_neg (ofNames_cons_ne_root (ha t List.mem_cons_self) above), ← String.toList_inj,
        toList_ofNames_cons_cons]
      simp
  simp only [entryName?, Option.filter_eq_some_iff, belowDirectory?_eq_some_iff, decide_eq_true_eq,
    ← isName_toList_iff, inside]
  exact And.comm

/-- What lies under a name in a directory. -/
theorem mem_entries_iff {name : String} {node : Node} :
    name ∈ d.entries (ofNames above) ∧ d.node? (join (ofNames above) name) = some node ↔
      d.node? (ofNames above) = some .directory ∧ IsName name.toList ∧
        d.node? (ofNames (name.toList :: above)) = some node := by
  have path (hn : IsName name.toList) := join_ofNames ha hn
  simp only [String.ofList_toList] at path
  unfold Disk.entries
  split
  · next inside =>
    simp only [List.mem_eraseDups, List.mem_filterMap, entryName?_eq_some_iff ha, inside, true_and]
    constructor
    · rintro ⟨⟨entry, -, hn, -⟩, found⟩
      exact ⟨hn, path hn ▸ found⟩
    · intro ⟨hn, found⟩
      have listed := d.mem_of_node? (ofNames_cons_ne_root hn above) found
      exact ⟨⟨_, listed, hn, rfl⟩, path hn ▸ found⟩
  · next outside =>
    simp [outside]

end

/-! ## Ways down -/

/-- A way down from a directory to a module that belongs to the tree: it goes through directories
that are not passed over, and the file at its end is not too large. -/
inductive Finds (d : Disk) (limit : Int) : List Segment → List Segment → Prop where
  | here {above : List Segment} {s : Segment} {bytes : ByteArray}
      (inside : d.node? (ofNames above) = some .directory) (name : IsName s)
      (file : d.node? (ofNames (s :: above)) = some (.file bytes))
      (supported : isSupported (String.ofList s) = true) (size : (bytes.size : Int) ≤ limit) :
      Finds d limit above [s]
  | further {above way : List Segment} {s : Segment}
      (inside : d.node? (ofNames above) = some .directory) (name : IsName s)
      (gone : isSkippedDirectory (String.ofList s) = false)
      (rest : Finds d limit (s :: above) way) :
      Finds d limit above (s :: way)

namespace Finds

variable {d : Disk} {limit : Int} {above way : List Segment}

theorem inside (h : Finds d limit above way) : d.node? (ofNames above) = some .directory := by
  cases h <;> assumption

theorem ne_nil (h : Finds d limit above way) : way ≠ [] := by
  cases h <;> exact List.cons_ne_nil _ _

theorem isName (h : Finds d limit above way) : ∀ s ∈ way, IsName s := by
  induction h with
  | here inside name file supported size => exact List.forall_mem_singleton.mpr name
  | further inside name gone rest ih => exact List.forall_mem_cons.mpr ⟨name, ih⟩

/-- Every step of a way ends at another node, under a longer path. -/
theorem length_le (h : Finds d limit above way) : way.length ≤ d.nodes.length := by
  have longer {above : List Segment} {s : Segment} (hs : IsName s) :
      (ofNames above).toList.length < (ofNames (s :: above)).toList.length := by
    have some := List.length_pos_iff.mpr hs.some
    cases above with
    | nil =>
      rw [toList_ofNames_singleton, ofNames_nil]
      simpa using some
    | cons t above =>
      rw [toList_ofNames_cons_cons, List.length_append]
      simp
  have listed {above : List Segment} {s : Segment} {node : Node} (hs : IsName s)
      (found : d.node? (ofNames (s :: above)) = some node) :
      ofNames (s :: above) ∈ d.nodes.map Prod.fst :=
    List.mem_map.mpr ⟨_, d.mem_of_node? (ofNames_cons_ne_root hs above) found, rfl⟩
  have steps : ∃ keys : List String, keys.length = way.length ∧ keys.Nodup ∧
      ∀ key ∈ keys, key ∈ d.nodes.map Prod.fst ∧
        (ofNames above).toList.length < key.toList.length := by
    induction h with
    | here inside name file supported size =>
      exact ⟨[_], rfl, List.nodup_singleton _,
        List.forall_mem_singleton.mpr ⟨listed name file, longer name⟩⟩
    | @further above way s inside name gone rest ih =>
      obtain ⟨keys, length, nodup, deep⟩ := ih
      refine ⟨ofNames (s :: above) :: keys, congrArg (· + 1) length, ?_, ?_⟩
      · refine List.nodup_cons.mpr ⟨fun again => ?_, nodup⟩
        exact Nat.lt_irrefl _ (deep _ again).2
      · refine List.forall_mem_cons.mpr ⟨⟨listed name rest.inside, longer name⟩, ?_⟩
        intro key there
        exact ⟨(deep key there).1, Nat.lt_trans (longer name) (deep key there).2⟩
  obtain ⟨keys, length, nodup, deep⟩ := steps
  have sub := List.subperm_of_subset nodup fun key there => (deep key there).1
  rw [← length, ← List.length_map (f := Prod.fst)]
  exact sub.length_le

end Finds

/-- Whether a file is a module does not depend on where it lies. -/
theorem isSupported_ofNames_cons {s : Segment} (hs : IsName s) (above : List Segment) :
    isSupported (ofNames (s :: above)) = isSupported (String.ofList s) := by
  refine isSupported_congr ((last_ofNames hs.noSlash above).trans ?_)
  rw [last, String.toList_ofList, cut]
  have whole : s.reverse.takeWhile (· != '/') = s.reverse := by
    refine List.takeWhile_eq_self_iff.mpr fun c hc => ?_
    have other : c ≠ '/' := fun slash => hs.noSlash (slash ▸ List.mem_reverse.mp hc)
    simpa using other
  rw [whole, List.reverse_reverse]

/-- A way is one of a walk if no directory on it is passed over, and if what lies at its end is a
module that is not too large. -/
theorem finds_iff {d : Disk} {limit : Int} {above way : List Segment} (hw : d.Walks above) :
    Finds d limit above way ↔ (way ≠ [] ∧ ∀ s ∈ way, IsName s) ∧
      (d.Walks (way.reverse ++ above) ∧
        ∃ bytes, d.node? (ofNames (way.reverse ++ above)) = some (.file bytes) ∧
          (bytes.size : Int) ≤ limit) ∧
      isSupported (ofNames (way.reverse ++ above)) = true ∧
      ∀ s ∈ way.dropLast, isSkippedDirectory (String.ofList s) = false := by
  induction way generalizing above with
  | nil =>
    constructor
    · intro h
      exact absurd rfl h.ne_nil
    · intro h
      exact absurd rfl h.1.1
  | cons s way ih =>
    have onward : (s :: way).reverse ++ above = way.reverse ++ s :: above := by simp
    have onto (inside : d.node? (ofNames above) = some .directory) : d.Walks (s :: above) :=
      ⟨inside, hw⟩
    rw [onward]
    constructor
    · intro h
      cases h with
      | here inside name file supported size =>
        refine ⟨⟨List.cons_ne_nil s [], List.forall_mem_singleton.mpr name⟩, ⟨onto inside, ?_⟩,
          (isSupported_ofNames_cons name above).trans supported, nofun⟩
        exact ⟨_, file, size⟩
      | further inside name gone rest =>
        obtain ⟨⟨filled, names⟩, file, supported, passed⟩ := (ih (onto inside)).mp rest
        refine ⟨⟨List.cons_ne_nil s way, List.forall_mem_cons.mpr ⟨name, names⟩⟩, file, supported,
          ?_⟩
        rw [List.dropLast_cons_of_ne_nil filled]
        exact List.forall_mem_cons.mpr ⟨gone, passed⟩
    · intro ⟨⟨_, names⟩, ⟨walks, bytes, file, size⟩, supported, passed⟩
      obtain ⟨name, names⟩ := List.forall_mem_cons.mp names
      obtain ⟨inside, -⟩ : d.Walks (s :: above) := walks.of_append
      cases way with
      | nil =>
        exact .here inside name file
          ((isSupported_ofNames_cons name above).symm.trans supported) size
      | cons t way =>
        have filled := List.cons_ne_nil t way
        rw [List.dropLast_cons_of_ne_nil filled] at passed
        obtain ⟨gone, passed⟩ := List.forall_mem_cons.mp passed
        refine .further inside name gone ((ih (onto inside)).mpr ?_)
        exact ⟨⟨filled, names⟩, ⟨walks, bytes, file, size⟩, supported, passed⟩

/-! ## The walk -/

section

variable (d : Disk) (limit : Int) (depth : Nat) {above : List Segment}
  (ha : ∀ s ∈ above, IsName s)
include ha

/-- What is found at one entry lies at the end of a way that starts with its name, if the same is
true deeper down. -/
theorem mem_visit (directory path name : String)
    (deeper : IsName name.toList → ∀ directory,
      path ∈ walk d limit depth (ofNames (name.toList :: above)) directory ↔
        ∃ way, way.length ≤ depth ∧ Finds d limit (name.toList :: above) way ∧
          path = absolute (join directory (String.ofList (Text.join ['/'] way)))) :
    name ∈ d.entries (ofNames above) ∧
        path ∈ visit d limit (walk d limit depth) (ofNames above) directory name ↔
      ∃ way, way.length ≤ depth ∧ Finds d limit above (name.toList :: way) ∧
        path =
          absolute (join directory (String.ofList (Text.join ['/'] (name.toList :: way)))) := by
  constructor
  · intro ⟨there, found⟩
    unfold visit at found
    split at found
    · next bytes node =>
      obtain ⟨inside, hn, file⟩ := (mem_entries_iff ha).mp ⟨there, node⟩
      split at found
      · next belongs =>
        rw [Bool.and_eq_true, decide_eq_true_eq] at belongs
        refine ⟨[], Nat.zero_le _, ?_, ?_⟩
        · exact .here inside hn file (by rw [String.ofList_toList, belongs.1]) belongs.2
        · rw [join_singleton, String.ofList_toList]
          exact List.mem_singleton.mp found
      · cases found
    · next node =>
      obtain ⟨inside, hn, -⟩ := (mem_entries_iff ha).mp ⟨there, node⟩
      split at found
      · cases found
      · next gone =>
        have place := join_ofNames ha hn
        rw [String.ofList_toList] at place
        rw [place] at found
        obtain ⟨way, short, rest, path_eq⟩ := (deeper hn _).mp found
        refine ⟨way, short, .further inside hn (by simpa using gone) rest, ?_⟩
        rw [path_eq, ← join_join_names hn rest.ne_nil rest.isName, String.ofList_toList]
    · cases found
  · intro ⟨way, short, found, path_eq⟩
    cases found with
    | here inside hn file supported size =>
      obtain ⟨there, node⟩ := (mem_entries_iff ha).mpr ⟨inside, hn, file⟩
      refine ⟨there, ?_⟩
      rw [String.ofList_toList] at supported
      rw [join_singleton, String.ofList_toList] at path_eq
      rw [visit, node]
      simp [supported, size, path_eq]
    | further inside hn gone rest =>
      obtain ⟨there, node⟩ := (mem_entries_iff ha).mpr ⟨inside, hn, rest.inside⟩
      refine ⟨there, ?_⟩
      have place := join_ofNames ha hn
      rw [String.ofList_toList] at place gone
      rw [visit, node]
      simp only [gone, Bool.false_eq_true, if_false, place]
      refine (deeper hn _).mpr ⟨way, short, rest, ?_⟩
      rw [path_eq, ← join_join_names hn rest.ne_nil rest.isName, String.ofList_toList]

end

theorem mem_walk {d : Disk} {limit : Int} {depth : Nat} {above : List Segment}
    (ha : ∀ s ∈ above, IsName s) {directory path : String} :
    path ∈ walk d limit depth (ofNames above) directory ↔
      ∃ way, way.length ≤ depth ∧ Finds d limit above way ∧
        path = absolute (join directory (String.ofList (Text.join ['/'] way))) := by
  induction depth generalizing above directory with
  | zero =>
    constructor
    · intro there
      cases there
    · rintro ⟨way, short, found, -⟩
      exact absurd (List.length_eq_zero_iff.mp (Nat.le_zero.mp short)) found.ne_nil
  | succ depth ih =>
    have visited (name : String) := mem_visit d limit depth ha directory path name fun hn _ =>
      ih (List.forall_mem_cons.mpr ⟨hn, ha⟩)
    rw [walk, List.mem_flatMap]
    constructor
    · intro ⟨name, there⟩
      obtain ⟨way, short, found, path_eq⟩ := (visited name).mp there
      exact ⟨name.toList :: way, Nat.succ_le_succ short, found, path_eq⟩
    · intro ⟨way, short, found, path_eq⟩
      obtain ⟨s, way, rfl⟩ := List.exists_cons_of_ne_nil found.ne_nil
      refine ⟨String.ofList s, (visited _).mpr ⟨way, Nat.le_of_succ_le_succ short, ?_⟩⟩
      rw [String.toList_ofList]
      exact ⟨found, path_eq⟩

/-- The names along a path that is written as a way down from a directory. -/
theorem Path.names_way {way : List Segment} (filled : way ≠ []) (hway : ∀ s ∈ way, IsName s)
    (directory : String) :
    names (join directory (String.ofList (Text.join ['/'] way))) =
      way.reverse ++ names directory := by
  rw [names_join (isAbsolute_names hway), String.toList_ofList,
    split_join filled fun s hs => (hway s hs).noSlash, foldl_push_names hway]

/-- A walk comes upon no path twice: the entries of a directory have different names. -/
theorem nodup_walk (d : Disk) (limit : Int) (depth : Nat) {above : List Segment}
    (ha : ∀ s ∈ above, IsName s) (directory : String) :
    (walk d limit depth (ofNames above) directory).Nodup := by
  induction depth generalizing above directory with
  | zero => exact List.nodup_nil
  | succ depth ih =>
    have visited (name path : String) := mem_visit d limit depth ha directory path name fun hn _ =>
      mem_walk (List.forall_mem_cons.mpr ⟨hn, ha⟩)
    rw [walk, List.nodup_flatMap]
    constructor
    · intro name there
      unfold visit
      split
      · split
        · exact List.nodup_singleton _
        · exact List.nodup_nil
      · next node =>
        split
        · exact List.nodup_nil
        · have hn := ((mem_entries_iff ha).mp ⟨there, node⟩).2.1
          have place := join_ofNames ha hn
          rw [String.ofList_toList] at place
          rw [place]
          exact ih (List.forall_mem_cons.mpr ⟨hn, ha⟩) _
      · exact List.nodup_nil
    · have once : (d.entries (ofNames above)).Nodup := by
        unfold Disk.entries
        split
        · exact nodup_eraseDups _
        · exact List.nodup_nil
      refine List.Pairwise.imp_of_mem (fun {name name'} there there' other => ?_) once
      intro path found found'
      obtain ⟨way, -, finds, path_eq⟩ := (visited name path).mp ⟨there, found⟩
      obtain ⟨way', -, finds', path_eq'⟩ := (visited name' path).mp ⟨there', found'⟩
      have walked := (absolute_eq_iff.mp (path_eq.symm.trans path_eq')).2
      rw [names_way (List.cons_ne_nil _ _) finds.isName,
        names_way (List.cons_ne_nil _ _) finds'.isName] at walked
      have ways := List.reverse_inj.mp (List.append_cancel_right walked)
      exact other (String.toList_inj.mp (List.cons.inj ways).1)

namespace Disk

variable {d : Disk} {path : String}

theorem find?_eq_some_iff {node : Node} :
    d.find? path = some node ↔ ∃ here, d.locate path = .ok here ∧ d.node? here = some node := by
  unfold find?
  cases d.locate path <;> simp

/-- Under a normal path lies what its names lead to. -/
theorem find?_absolute_iff {node : Node} : d.find? (absolute path) = some node ↔
    d.Walks (names path) ∧ d.node? (ofNames (names path)) = some node := by
  rw [find?_eq_some_iff]
  constructor
  · intro ⟨here, located, found⟩
    have ends := locate_ok located
    rw [names_absolute] at ends
    exact ⟨ends.2, ends.1 ▸ found⟩
  · intro ⟨walks, found⟩
    exact ⟨_, locate_absolute walks, found⟩

theorem isDirectory_iff : d.isDirectory path = true ↔
    ∃ here, d.locate path = .ok here ∧ d.node? here = some .directory := by
  rw [isDirectory, decide_eq_true_eq, find?_eq_some_iff]

end Disk

section

variable {d d' : Disk} {directory path here : String} {limit : Int} {may : String → Prop}

/-- Whether a path with names is that of a module is decided by the last one. -/
theorem isSupported_ofNames {p : String} (filled : names p ≠ []) :
    isSupported (ofNames (names p)) = isSupported (absolute p) := by
  obtain ⟨s, above, cons⟩ := List.exists_cons_of_ne_nil filled
  have name := isName_of_mem_names p s (cons ▸ List.mem_cons_self)
  obtain ⟨slashes, text⟩ := toList_absolute p
  obtain ⟨front, ends⟩ := toList_ofNames_cons s above
  rw [cons, ends, ← List.append_assoc] at text
  rw [cons, isSupported_congr ((last_ofNames name.noSlash above).trans
    (last_append _ name.noSlash text).symm)]

/-- A path is one of the modules of a tree if a way leads from the directory to a file there: a
module that is not too large, and below no directory that is passed over. -/
theorem mem_collectFiles : path ∈ collectFiles d directory limit ↔
    d.isDirectory directory = true ∧ ∃ way, (way ≠ [] ∧ ∀ s ∈ way, IsName s) ∧
      path = absolute (join directory (String.ofList (Text.join ['/'] way))) ∧
      (∃ bytes, d.find? path = some (.file bytes) ∧ (bytes.size : Int) ≤ limit) ∧
      isSupported path = true ∧
      ∀ s ∈ way.dropLast, isSkippedDirectory (String.ofList s) = false := by
  -- The names of such a path are those of the way, behind those of the directory.
  have belongs {way : List Segment} (filled : way ≠ []) (hway : ∀ s ∈ way, IsName s)
      (path_eq : path = absolute (join directory (String.ofList (Text.join ['/'] way)))) :
      isSupported (ofNames (way.reverse ++ names directory)) = isSupported path ∧
        ∀ node, d.find? path = some node ↔ d.Walks (way.reverse ++ names directory) ∧
          d.node? (ofNames (way.reverse ++ names directory)) = some node := by
    have names_eq := names_way filled hway directory
    rw [path_eq, ← names_eq]
    refine ⟨isSupported_ofNames ?_, fun node => Disk.find?_absolute_iff⟩
    rw [names_eq]
    exact List.append_ne_nil_of_left_ne_nil (List.reverse_ne_nil_iff.mpr filled) _
  constructor
  · intro there
    unfold collectFiles at there
    split at there
    · cases there
    · next here located =>
      obtain ⟨rfl, walks⟩ := Disk.locate_ok located
      obtain ⟨way, -, found, path_eq⟩ :=
        (mem_walk (isName_of_mem_names directory)).mp (mem_inPathOrder.mp there)
      refine ⟨Disk.isDirectory_iff.mpr ⟨_, located, found.inside⟩, way, ?_⟩
      obtain ⟨⟨filled, hway⟩, ⟨onward, bytes, file, size⟩, supported, passed⟩ :=
        (finds_iff walks).mp found
      obtain ⟨same, place⟩ := belongs filled hway path_eq
      exact ⟨⟨filled, hway⟩, path_eq, ⟨bytes, (place _).mpr ⟨onward, file⟩, size⟩,
        same ▸ supported, passed⟩
  · intro ⟨isDirectory, way, ⟨filled, hway⟩, path_eq, ⟨bytes, file, size⟩, supported, passed⟩
    obtain ⟨here, located, -⟩ := Disk.isDirectory_iff.mp isDirectory
    obtain ⟨rfl, walks⟩ := Disk.locate_ok located
    obtain ⟨same, place⟩ := belongs filled hway path_eq
    obtain ⟨onward, node⟩ := (place _).mp file
    have found : Finds d limit (names directory) way := (finds_iff walks).mpr
      ⟨⟨filled, hway⟩, ⟨onward, bytes, node, size⟩, same.trans supported, passed⟩
    rw [collectFiles, located]
    exact mem_inPathOrder.mpr ((mem_walk (isName_of_mem_names directory)).mpr
      ⟨way, found.length_le, found, path_eq⟩)

/-- The modules of a tree are in order, each once. -/
theorem pairwise_collectFiles (d : Disk) (directory : String) (limit : Int) :
    (collectFiles d directory limit).Pairwise (· < ·) := by
  unfold collectFiles
  split
  · exact .nil
  · next here located =>
    rw [(Disk.locate_ok located).1]
    exact pairwise_inPathOrder (nodup_walk d limit _ (isName_of_mem_names directory) directory)

theorem isSupported_of_mem_collectFiles (h : path ∈ collectFiles d directory limit) :
    isSupported path = true ∧ absolute path = path := by
  obtain ⟨-, way, -, rfl, -, supported, -⟩ := mem_collectFiles.mp h
  exact ⟨supported, absolute_absolute _⟩

/-- When files are rewritten, no path comes to a tree but those of these files. -/
theorem mem_collectFiles_of_rewrites (h : d.Rewrites may d')
    (there : path ∈ collectFiles d' directory limit) (located : d.locate path = .ok here) :
    path ∈ collectFiles d directory limit ∨ may here := by
  obtain ⟨isDirectory, way, names, path_eq, ⟨bytes, found, size⟩, rest⟩ := mem_collectFiles.mp there
  obtain ⟨up, upThere, up_directory⟩ := Disk.isDirectory_iff.mp isDirectory
  rw [h.locate_eq] at upThere
  have root : d.isDirectory directory = true :=
    Disk.isDirectory_iff.mpr ⟨up, upThere, h.directory_iff.mp up_directory⟩
  obtain ⟨here', located', node⟩ := Disk.find?_eq_some_iff.mp found
  rw [h.locate_eq, located] at located'
  obtain rfl := Except.ok.inj located'
  rcases h.found here with same | ⟨allowed, -⟩
  · have before := Disk.find?_eq_some_iff.mpr ⟨here, located, same ▸ node⟩
    exact .inl (mem_collectFiles.mpr ⟨root, way, names, path_eq, ⟨bytes, before, size⟩, rest⟩)
  · exact .inr allowed

end

end ModuleRepair
