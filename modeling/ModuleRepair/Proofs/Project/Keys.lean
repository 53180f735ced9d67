import Mathlib.Data.List.Find
import ModuleRepair.Proofs.Path.Joined
import ModuleRepair.Proofs.Project.Load

/-!
# What an index is searched by

Modules come into an index under the normal forms of their paths, and whatever is done with it, they
stay under them (`keyed_after`). A query is brought to its normal form as well. So how a path is
spelled makes no difference, neither to what is found nor to what is removed (`after_keys`).
-/
namespace ModuleRepair.Project

open ModuleRepair.Text ModuleRepair.Path ModuleRepair.Script

/-! ## Use of an index -/

/-- What is done with an index. -/
inductive Action where
  /-- Loads a project; its index takes the place of this one. -/
  | load (d : Disk) (directory sourceRoot mark : String) (files : List String) (mode : IndexMode)
  /-- Reads one file. -/
  | read (d : Disk) (path : String)
  /-- Adds a module that no disk holds, or one in the place of another. -/
  | add (path text : String)
  /-- Gives a module another text. -/
  | edit (path text : String)
  | remove (path : String)
  /-- Writes the modified modules back. -/
  | save (d : Disk) (locked : String → Bool)
  | release

/-- The index after one action. A load that fails leaves it as it was. -/
def apply (p : Project) : Action → Project
  | .load d directory sourceRoot mark files mode =>
    match Project.load d directory sourceRoot mark files mode with
    | .ok (loaded, _) => loaded
    | .error _ => p
  | .read d path => (p.addFromDisk d path).1
  | .add path text => p.put (.ofText path text p.root)
  | .edit path text =>
    match p.get? path with
    | some f => p.put { f with text }
    | none => p
  | .remove path => p.erase path
  | .save d locked => (p.save d locked).project
  | .release => p.release

/-- The index after some actions. -/
def after (p : Project) (actions : List Action) : Project :=
  actions.foldl apply p

/-! ## Normal paths -/

/-- The modules of an index are in order, under normal paths. -/
structure Keyed (p : Project) : Prop where
  ordered : p.Ordered
  normal : ∀ f ∈ p.files, absolute f.path = f.path
  rooted : isAbsolute p.directory = true

variable {p : Project} {f : SourceFile}

theorem keyed_empty (directory sourceRoot mark : String) (mode : IndexMode) :
    (empty directory sourceRoot mark mode).Keyed :=
  ⟨.nil, nofun, isAbsolute_absolute directory⟩

namespace Keyed

theorem put (h : p.Keyed) (normal : absolute f.path = f.path) : (p.put f).Keyed where
  ordered := h.ordered.put f
  normal g hg := by
    rcases mem_insert hg with rfl | hg
    · exact normal
    · exact h.normal g hg
  rooted := h.rooted

theorem erase (h : p.Keyed) (path : String) : (p.erase path).Keyed where
  ordered := List.Pairwise.filter _ h.ordered
  normal g hg := h.normal g (List.mem_filter.mp hg).1
  rooted := h.rooted

theorem release (h : p.Keyed) : p.release.Keyed :=
  ⟨.nil, nofun, h.rooted⟩

theorem putText (h : p.Keyed) (path text : String) : (p.put (.ofText path text p.root)).Keyed :=
  h.put (absolute_absolute path)

theorem save (h : p.Keyed) (d : Disk) (locked : String → Bool) :
    (p.save d locked).project.Keyed := by
  refine List.foldlRecOn (motive := fun s : Saved => s.project.Keyed) p.modified _ h ?_
  intro s hs f hf
  unfold saveOne
  split
  · exact hs.put (h.normal f (List.mem_filter.mp hf).1)
  · exact hs

theorem apply (h : p.Keyed) (action : Action) : (p.apply action).Keyed := by
  cases action with
  | load d directory sourceRoot mark files mode =>
    unfold Project.apply
    dsimp only
    split
    · next loaded notices done =>
      exact load_induction (keyed_empty directory sourceRoot mark mode)
        (fun _ path text hq => hq.putText path text) done
    · exact h
  | read d path =>
    rcases addFromDisk_eq d p path with same | ⟨path', text, added⟩
    · rw [Project.apply, same]
      exact h
    · rw [Project.apply, added]
      exact h.putText path' text
  | add path text => exact h.putText path text
  | edit path text =>
    unfold Project.apply
    dsimp only
    split
    · next f found => exact h.put (h.normal f (List.mem_of_find?_eq_some found))
    · exact h
  | remove path => exact h.erase path
  | save d locked => exact h.save d locked
  | release => exact h.release

end Keyed

/-- Whatever is done with an index, its modules stay in order and under normal paths. -/
theorem keyed_after (h : p.Keyed) (actions : List Action) : (p.after actions).Keyed :=
  List.foldlRecOn (motive := Keyed) actions _ h fun _ hq action _ => hq.apply action

/-! ## Spellings -/

theorem resolvePath_resolvePath (p : Project) (path : String) :
    p.resolvePath (p.resolvePath path) = p.resolvePath path :=
  p.resolvePath_absolute _

theorem resolvePath_eq_iff {a b : String} : p.resolvePath a = p.resolvePath b ↔
    leading (join p.directory a) = leading (join p.directory b) ∧
      names (join p.directory a) = names (join p.directory b) :=
  absolute_eq_iff

/-- A relative path may as well be written from the root. -/
theorem Keyed.resolvePath_join (h : p.Keyed) (path : String) :
    p.resolvePath (join p.directory path) = p.resolvePath path := by
  rw [resolvePath, join_of_isAbsolute (isAbsolute_join h.rooted path), resolvePath]

/-- What stands between slashes and leads nowhere: nothing, the same place, or a step down and up
again. -/
def Idle (middle : String) : Prop :=
  middle = "" ∨ middle = "." ∨ ∃ s, IsName s ∧ middle = String.ofList s ++ "/.."

theorem foldl_push_of_idle {middle : String} (idle : Idle middle) (walked : List Segment) :
    (split '/' middle.toList).foldl (push true) walked = walked := by
  rcases idle with rfl | rfl | ⟨s, name, rfl⟩
  · rfl
  · rfl
  · have text : (String.ofList s ++ "/..").toList = Text.join ['/'] [s, parent] := by
      rw [String.toList_append, String.toList_ofList]
      simp [Text.join, parent]
    have segments : ∀ t ∈ [s, parent], '/' ∉ t :=
      List.forall_mem_cons.mpr ⟨name.noSlash, List.forall_mem_singleton.mpr (by decide)⟩
    have down : push true walked s = s :: walked := by
      simp [push, name.some, name.notDot, name.notParent]
    have up : push true (s :: walked) parent = walked := by
      have some : parent ≠ [] := by decide
      have other : parent ≠ ['.'] := by decide
      simp [push, some, other, name.notParent]
    rw [text, split_join (List.cons_ne_nil s _) segments, List.foldl_cons, down, List.foldl_cons,
      up, List.foldl_nil]

/-- What leads nowhere may be left out of a path. -/
theorem resolvePath_of_idle {a middle : String} (filled : ∃ c ∈ a.toList, c ≠ '/')
    (idle : Idle middle) (b : String) :
    p.resolvePath (a ++ "/" ++ middle ++ "/" ++ b) = p.resolvePath (a ++ "/" ++ b) := by
  have some : a ≠ "" := by
    rintro rfl
    obtain ⟨c, there, -⟩ := filled
    cases there
  obtain ⟨front, text⟩ := suffix_join p.directory a
  have within : ∃ c ∈ (join p.directory a).toList, c ≠ '/' := by
    obtain ⟨c, there, other⟩ := filled
    exact ⟨c, text ▸ List.mem_append_right front there, other⟩
  have respelled := absolute_within within b (foldl_push_of_idle idle (names (join p.directory a)))
  simpa only [resolvePath, String.append_assoc, join_longer some] using respelled

/-! ## Queries -/

theorem Keyed.mem_iff (h : p.Keyed) : f ∈ p.files ↔ p.get? f.path = some f := by
  constructor
  · intro hf
    have itself : p.resolvePath f.path = f.path := by
      rw [← h.normal f hf, resolvePath_absolute]
    rw [get?, itself]
    exact h.ordered.find?_of_mem hf
  · exact List.mem_of_find?_eq_some

/-- Removing a module takes every spelling of its path, and no other. -/
theorem get?_erase (p : Project) (a b : String) : (p.erase a).get? b =
    if p.resolvePath b = p.resolvePath a then none else p.get? b := by
  have searched : (p.erase a).get? b = p.files.find? fun f =>
      f.path ≠ p.resolvePath a ∧ f.path = p.resolvePath b := by
    have itself : (p.erase a).resolvePath b = p.resolvePath b := rfl
    change (p.files.filter _).find? _ = _
    rw [List.find?_filter]
    simp [itself]
  rw [searched]
  split
  · next same => simp [same]
  · next other =>
    refine List.find?_congr fun f _ => ?_
    by_cases there : f.path = p.resolvePath b <;> simp [there, other]

/-- An index is searched by normal paths, whatever was done with it before. Each of its modules lies
under its own path, which is normal, and the modules are listed in the order of their paths, each
once. Spellings of one path are answered alike: it makes no difference whether a path is relative,
and what leads nowhere in it does not count. A path that is removed is found under no spelling. -/
theorem after_keys (directory sourceRoot mark : String) (mode : IndexMode)
    (actions : List Action) :
    let p := (empty directory sourceRoot mark mode).after actions
    (∀ path f, p.find? path = some f → f.path = path ∧ p.resolvePath path = path) ∧
    (∀ a, p.resolvePath (p.resolvePath a) = p.resolvePath a) ∧
    (∀ a b, p.resolvePath a = p.resolvePath b → p.get? a = p.get? b ∧
      (p.get? a).isSome = (p.get? b).isSome ∧ p.erase a = p.erase b) ∧
    (∀ a b, p.resolvePath a = p.resolvePath b ↔
      leading (join p.directory a) = leading (join p.directory b) ∧
        names (join p.directory a) = names (join p.directory b)) ∧
    (∀ a, p.resolvePath (join p.directory a) = p.resolvePath a) ∧
    (∀ a middle b, (∃ c ∈ a.toList, c ≠ '/') → Idle middle →
      p.resolvePath (a ++ "/" ++ middle ++ "/" ++ b) = p.resolvePath (a ++ "/" ++ b)) ∧
    ((p.files.map (·.path)).Pairwise (· < ·) ∧ ∀ f, f ∈ p.files ↔ p.get? f.path = some f) ∧
    ∀ a b, (p.erase a).get? b =
      if p.resolvePath b = p.resolvePath a then none else p.get? b := by
  intro p
  have keyed : p.Keyed := keyed_after (keyed_empty directory sourceRoot mark mode) actions
  refine ⟨fun path f found => ?_, p.resolvePath_resolvePath, fun a b same => ?_,
    fun a b => resolvePath_eq_iff, keyed.resolvePath_join, fun a middle b filled idle => ?_,
    ⟨List.pairwise_map.mpr keyed.ordered, fun f => keyed.mem_iff⟩, p.get?_erase⟩
  · obtain rfl := path_of_find? found
    have normal := keyed.normal f (List.mem_of_find?_eq_some found)
    refine ⟨rfl, ?_⟩
    rw [← normal, resolvePath_absolute]
  · simp only [get?, Project.erase, same, and_self]
  · exact resolvePath_of_idle filled idle b

end ModuleRepair.Project
