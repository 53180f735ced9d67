import ModuleRepair.Disk
import ModuleRepair.Proofs.Path

/-!
# Walking along a path

A walk passes through directories only, and it ends at the normal form of the path. So a directory
is found under the normal form of its path as well, also on another disk that has kept it: rewriting
files loses no directory.
-/
namespace ModuleRepair.Disk

open ModuleRepair.Text ModuleRepair.Path

/-- Whether every directory of a disk is one of another disk. -/
def KeepsDirectories (d d' : Disk) : Prop :=
  ∀ path, d.node? path = some .directory → d'.node? path = some .directory

theorem KeepsDirectories.refl (d : Disk) : d.KeepsDirectories d :=
  fun _ h => h

theorem KeepsDirectories.trans {d₁ d₂ d₃ : Disk} (h : d₁.KeepsDirectories d₂)
    (h' : d₂.KeepsDirectories d₃) : d₁.KeepsDirectories d₃ :=
  fun path found => h' path (h path found)

/-- Whether every path above that of some names is one of a directory. -/
def Walks (d : Disk) : List Segment → Prop
  | [] => True
  | _ :: above => d.node? (ofNames above) = some .directory ∧ d.Walks above

/-- One step down, or up, or to the same place. -/
theorem Walks.push {d : Disk} {names : List Segment} (hw : d.Walks names)
    (here : d.node? (ofNames names) = some .directory) (s : Segment) :
    d.Walks (Path.push true names s) := by
  unfold Path.push
  split
  · exact hw
  · split
    · cases names with
      | nil => exact trivial
      | cons top rest =>
        dsimp only
        split
        · exact ⟨here, hw⟩
        · exact hw.2
    · exact ⟨here, hw⟩

theorem Walks.of_append {d : Disk} {below names : List Segment} (h : d.Walks (below ++ names)) :
    d.Walks names := by
  induction below with
  | nil => exact h
  | cons s below ih => exact ih h.2

theorem Walks.of_keeps {d d' : Disk} (keeps : d.KeepsDirectories d') {names : List Segment}
    (h : d.Walks names) : d'.Walks names := by
  induction names with
  | nil => exact trivial
  | cons s above ih => exact ⟨keeps _ h.1, ih h.2⟩

theorem follow_cons {d : Disk} {names : List Segment} (hn : ∀ s ∈ names, IsName s)
    (here : d.node? (ofNames names) = some .directory) {s : Segment} (hs : '/' ∉ s)
    (rest : List Segment) :
    d.follow (s :: rest) (ofNames names) = d.follow rest (ofNames (Path.push true names s)) := by
  simp only [follow, here, Path.push]
  split
  · rfl
  · next written =>
    split
    · cases names with
      | nil => simp [directory_root]
      | cons top above =>
        have name := hn top List.mem_cons_self
        simp only [name.notParent, if_false]
        rw [directory_ofNames (fun t ht => hn t (List.mem_cons_of_mem top ht)) name]
    · next other =>
      have name : IsName s :=
        ⟨fun none => written (.inl none), fun dot => written (.inr dot), other, hs⟩
      rw [join_ofNames hn name]

/-- Where a walk ends, and that it went through directories. -/
theorem follow_ofNames {d : Disk} {segments : List Segment} (hs : ∀ s ∈ segments, '/' ∉ s)
    {names : List Segment} (hn : ∀ s ∈ names, IsName s) (hw : d.Walks names) {path : String}
    (h : d.follow segments (ofNames names) = .ok path) :
    path = ofNames (segments.foldl (Path.push true) names) ∧
      d.Walks (segments.foldl (Path.push true) names) := by
  induction segments generalizing names with
  | nil => exact ⟨(Except.ok.inj h).symm, hw⟩
  | cons s rest ih =>
    have noSlash := hs s List.mem_cons_self
    have here : d.node? (ofNames names) = some .directory := by
      simp only [follow] at h
      split at h
      · cases h
      · cases h
      · assumption
    rw [follow_cons hn here noSlash] at h
    exact ih (fun t ht => hs t (List.mem_cons_of_mem s ht)) (isName_of_mem_push hn noSlash)
      (hw.push here s) h

/-- A walk along names, with directories on the way. -/
theorem follow_names {d : Disk} {below names : List Segment} (hb : ∀ s ∈ below, IsName s)
    (hn : ∀ s ∈ names, IsName s) (hw : d.Walks (below.reverse ++ names)) :
    d.follow below (ofNames names) = .ok (ofNames (below.reverse ++ names)) := by
  induction below generalizing names with
  | nil => rfl
  | cons s below ih =>
    have name := hb s List.mem_cons_self
    have behind : (s :: below).reverse ++ names = below.reverse ++ s :: names := by simp
    rw [behind] at hw ⊢
    have here : d.node? (ofNames names) = some .directory := hw.of_append.1
    have pushed : Path.push true names s = s :: names := by
      simp [Path.push, name.some, name.notDot, name.notParent]
    rw [follow_cons hn here name.noSlash, pushed]
    exact ih (fun t ht => hb t (List.mem_cons_of_mem s ht))
      (List.forall_mem_cons.mpr ⟨name, hn⟩) hw

/-- What a path leads to lies under its normal form. -/
theorem locate_ok {d : Disk} {path here : String} (h : d.locate path = .ok here) :
    here = ofNames (names path) ∧ d.Walks (names path) := by
  unfold locate at h
  split at h
  · cases h
  · have root : ∀ s ∈ ([] : List Segment), IsName s := by simp
    exact follow_ofNames (fun _ hs => not_mem_of_mem_split hs) root trivial h

/-- Slashes at the root change nothing. -/
theorem follow_slashes (d : Disk) (n : Nat) (text : List Char) :
    d.follow (split '/' (List.replicate n '/' ++ text)) "/" = d.follow (split '/' text) "/" := by
  induction n with
  | zero => rfl
  | succ n ih =>
    rw [← ih, List.replicate_succ, List.cons_append]
    generalize List.replicate n '/' ++ text = text
    rw [split_cons_sep, ← ofNames_nil, follow_cons (by simp) rfl List.not_mem_nil]
    rfl

theorem follow_split_ofNames {d : Disk} {names : List Segment} (hn : ∀ s ∈ names, IsName s)
    (hw : d.Walks names) :
    d.follow (split '/' (ofNames names).toList) "/" = .ok (ofNames names) := by
  have root := follow_slashes d 1 (Text.join ['/'] names.reverse)
  rw [ofNames, String.toList_ofList, ← ofNames]
  refine root.trans ?_
  cases names with
  | nil => rfl
  | cons s above =>
    have back : ∀ t ∈ (s :: above).reverse, IsName t :=
      fun t ht => hn t (List.mem_reverse.mp ht)
    rw [split_join (by simp) fun t ht => (back t ht).noSlash, ← ofNames_nil,
      follow_names back (by simp) (by simpa using hw), List.reverse_reverse, List.append_nil]

/-- The normal form of a path leads where it says, through directories. -/
theorem locate_absolute {d : Disk} {path : String} (hw : d.Walks (names path)) :
    d.locate (absolute path) = .ok (ofNames (names path)) := by
  obtain ⟨slashes, text⟩ := toList_absolute path
  rw [locate, if_neg (absolute_ne_empty path), text, follow_slashes,
    follow_split_ofNames (isName_of_mem_names path) hw]

/-- A directory is found under the normal form of its path, and stays one as long as no directory
is lost. -/
theorem isDirectory_absolute {d d' : Disk} (keeps : d.KeepsDirectories d') {path : String}
    (h : d.isDirectory path = true) : d'.isDirectory (absolute path) = true := by
  have found : d.find? path = some .directory := by simpa [isDirectory] using h
  unfold find? at found
  split at found
  · next here located =>
    obtain ⟨rfl, hw⟩ := locate_ok located
    simp [isDirectory, find?, locate_absolute (hw.of_keeps keeps), keeps _ found]
  · cases found

theorem lookup_map_of_ne {κ ν : Type} [DecidableEq κ] {key other : κ} (h : other ≠ key) (value : ν)
    (entries : List (κ × ν)) :
    (entries.map fun entry => if entry.1 = key then (key, value) else entry).lookup other =
      entries.lookup other := by
  induction entries with
  | nil => rfl
  | cons entry rest ih =>
    obtain ⟨first, held⟩ := entry
    simp only [List.map_cons]
    split
    · next same =>
      have unlike : (other == key) = false := beq_eq_false_iff_ne.mpr h
      simp only [List.lookup_cons, same, unlike, ih]
    · simp only [List.lookup_cons, ih]

theorem lookup_map_self {κ ν : Type} [DecidableEq κ] {key : κ} {value : ν}
    {entries : List (κ × ν)} (h : (entries.lookup key).isSome = true) :
    (entries.map fun entry => if entry.1 = key then (key, value) else entry).lookup key =
      some value := by
  induction entries with
  | nil => cases h
  | cons entry rest ih =>
    obtain ⟨first, held⟩ := entry
    by_cases same : first = key
    · simp [same]
    · have other : (key == first) = false := beq_eq_false_iff_ne.mpr (Ne.symm same)
      simp only [List.lookup_cons, other] at h
      simp only [List.map_cons, same, if_false, List.lookup_cons, other, ih h]

/-- A node that is set is there, and the others are as they were. -/
theorem node?_set {d : Disk} {here : String} (notRoot : here ≠ "/") (node : Node) (path : String) :
    (d.set here node).node? path = if path = here then some node else d.node? path := by
  by_cases same : path = here
  · subst same
    rw [node?, if_neg notRoot, if_pos rfl, set]
    by_cases there : (d.nodes.lookup path).isSome = true
    · rw [if_pos there]
      exact lookup_map_self there
    · rw [if_neg there, List.lookup_append, Option.not_isSome_iff_eq_none.mp there]
      simp
  · have other : (path == here) = false := beq_eq_false_iff_ne.mpr same
    rw [if_neg same, node?, node?, set]
    split
    · rfl
    · split
      · exact lookup_map_of_ne same node d.nodes
      · rw [List.lookup_append, List.lookup_cons, other]
        exact Option.or_none

/-- Whatever takes the place of a file, no directory is lost. -/
theorem keepsDirectories_set {d : Disk} {path : String} {bytes : ByteArray}
    (h : d.node? path = some (.file bytes)) (node : Node) :
    d.KeepsDirectories (d.set path node) := by
  intro other found
  have ne : other ≠ path := fun same => by simp [same, h] at found
  have notRoot : path ≠ "/" := fun root => by simp [node?, root] at h
  rw [node?_set notRoot, if_neg ne, found]

/-- A file that can be read is rewritten in place. -/
theorem keepsDirectories_write {d d' : Disk} {path : String} {old new : ByteArray}
    (read : d.read path = .ok old) (written : d.write path new = .ok d') :
    d.KeepsDirectories d' := by
  cases located : d.locate path with
  | error e => simp [Disk.read, located, bind, Except.bind] at read
  | ok here =>
    simp only [Disk.read, located, bind, Except.bind] at read
    split at read
    · next found =>
      simp only [write, located, bind, Except.bind, found] at written
      obtain rfl := Except.ok.inj written
      exact keepsDirectories_set found _
    · cases read
    · cases read

end ModuleRepair.Disk
