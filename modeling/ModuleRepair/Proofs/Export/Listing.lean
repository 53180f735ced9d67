import Mathlib.Data.List.Infix
import ModuleRepair.Proofs.Export.History
import ModuleRepair.Proofs.Project.Order

/-!
# The surface as a listing

The surface of a project lists what its modules offer, module by module in the order of their paths,
with the first entry of each name only. Limits cut the listing short and change nothing else
(`Project.surface_lists`).
-/
namespace ModuleRepair

open ModuleRepair.Script

namespace SourceFile

/-- The entry of a module's default export, if that has a name. -/
def defaultEntry (f : SourceFile) : Option ExportEntry :=
  match f.specifier?, f.outline with
  | some specifier, .ok o =>
    (given (f.defaultNameIn o)).map fun name => ⟨name, specifier, true, f.path⟩
  | _, _ => none

/-- The entries of a module's named exports, in their order. -/
def namedEntries (f : SourceFile) : List ExportEntry :=
  match f.specifier?, f.outline with
  | some specifier, .ok o => o.namedExports.map fun name => ⟨name, specifier, false, f.path⟩
  | _, _ => []

/-- What a module offers: nothing that is called default is offered by name. -/
def offers (f : SourceFile) : List ExportEntry :=
  f.defaultEntry.toList ++ f.namedEntries.filter (·.name ≠ "default")

theorem entriesOf_eq (f : SourceFile) : (Project.entriesOf f).1 = f.offers := by
  unfold Project.entriesOf exports offers defaultEntry namedEntries
  cases f.specifier? with
  | none => rfl
  | some specifier =>
    cases f.outline with
    | error e => rfl
    | ok o =>
      have named : (o.namedExports.map fun name =>
          (⟨name, specifier, false, some f.path⟩ : ExportEntry)).filter (·.name ≠ "default") =
          (o.namedExports.filter (· ≠ "default")).map fun name =>
            ⟨name, specifier, false, some f.path⟩ := by
        rw [List.filter_map]
        rfl
      dsimp only
      rw [named]
      rfl

end SourceFile

theorem upTo_eq_firstOf {α : Type} (limit : Option Nat) (xs : List α) :
    upTo (limit.map Int.ofNat) xs = firstOf limit xs := by
  cases limit with
  | none => rfl
  | some n =>
    have positive : ¬(Int.ofNat n < 0) := by simp
    simp only [upTo, firstOf, Option.map_some, positive, if_false]
    rfl

theorem Surface.addAll_eq_ofLog (limit : Option Nat) (entries : List ExportEntry) :
    Surface.addAll { limit := limit.map Int.ofNat } entries = ofLog limit entries := by
  induction entries using List.reverseRecOn with
  | nil => cases limit <;> simp [addAll, ofLog, firstOf, ExportEntry.firstByName]
  | append_singleton entries e ih =>
    rw [addAll, List.foldl_concat, ← addAll, ih, ofLog_add]

/-! ## Limits -/

/-- Whether a limit allows no more than another one. -/
def Within (limit limit' : Option Nat) : Prop :=
  ∀ n ∈ limit', ∃ m ∈ limit, m ≤ n

theorem firstOf_mono {α : Type} {limit limit' : Option Nat} {xs ys : List α}
    (wider : Within limit limit') (longer : xs <+: ys) :
    firstOf limit xs <+: firstOf limit' ys := by
  cases limit' with
  | none => exact (prefix_firstOf limit xs).trans longer
  | some n =>
    obtain ⟨m, rfl, less⟩ := wider n rfl
    have same : xs.take m = (xs.take n).take m := by rw [List.take_take, Nat.min_eq_left less]
    change xs.take m <+: ys.take n
    rw [same]
    exact (List.take_prefix m _).trans (List.IsPrefix.take longer n)

theorem firstByName_mono {log log' : List ExportEntry} (longer : log <+: log') :
    ExportEntry.firstByName log <+: ExportEntry.firstByName log' := by
  obtain ⟨more, rfl⟩ := longer
  rw [ExportEntry.firstByName_append]
  exact List.prefix_append _ _

namespace Project

variable {p : Project}

theorem surface_entries (p : Project) (maxModules maxEntries : Option Nat) :
    (p.surface (maxModules.map Int.ofNat) (maxEntries.map Int.ofNat)).1.entries =
      firstOf maxEntries
        (ExportEntry.firstByName ((firstOf maxModules p.offering).flatMap (·.offers))) := by
  have scanned (files : List SourceFile) :
      (files.map entriesOf).flatMap (·.1) = files.flatMap (·.offers) := by
    rw [List.flatMap_map]
    exact List.flatMap_congr fun f _ => f.entriesOf_eq
  simp only [surface, upTo_eq_firstOf, scanned, Surface.addAll_eq_ofLog]
  rfl

/-- **The surface is a listing of what the modules offer.** Wider limits only extend it. -/
theorem surface_lists (h : p.Ordered) : ∃ modules : List SourceFile,
    modules.Pairwise (·.path < ·.path) ∧
    (∀ f, f ∈ modules ↔ f ∈ p.files ∧ f.isVendored = false ∧ f.isDeclarationFile = false ∧
      ∃ specifier, f.specifier? = some specifier) ∧
    (∀ maxModules maxEntries : Option Nat,
      (p.surface (maxModules.map Int.ofNat) (maxEntries.map Int.ofNat)).1.entries =
        firstOf maxEntries (ExportEntry.firstByName ((firstOf maxModules modules).flatMap fun f =>
          f.defaultEntry.toList ++ f.namedEntries.filter (·.name ≠ "default")))) ∧
    ∀ maxModules maxModules' maxEntries maxEntries' : Option Nat,
      Within maxModules maxModules' → Within maxEntries maxEntries' →
      (p.surface (maxModules.map Int.ofNat) (maxEntries.map Int.ofNat)).1.entries <+:
        (p.surface (maxModules'.map Int.ofNat) (maxEntries'.map Int.ofNat)).1.entries := by
  refine ⟨p.offering, ?_, fun f => ?_, p.surface_entries, ?_⟩
  · exact (h.filter _).filter _
  · simp only [offering, targets, List.mem_filter, SourceFile.isTarget, Bool.and_eq_true,
      Bool.not_eq_true', Option.isSome_iff_exists, and_assoc]
  · intro maxModules maxModules' maxEntries maxEntries' modules entries
    rw [surface_entries, surface_entries]
    refine firstOf_mono entries (firstByName_mono ?_)
    exact List.IsPrefix.flatMap (firstOf_mono modules List.prefix_rfl) _

end Project

/-- Two modules that offer the same name, and a third that gives one of its exports a name that is
offered by default only. -/
def gallery : Project where
  directory := "/app"
  root := ⟨"@/", "/app/src"⟩
  mode := .full
  files := [
    .ofText "/app/src/frame.ts"
      "export const width = 1;\nexport default function frame() \x7b\x7d\n" ⟨"@/", "/app/src"⟩,
    .ofText "/app/src/image.ts" "export const width = 2, height = 3;\n" ⟨"@/", "/app/src"⟩,
    .ofText "/app/src/index.ts" "export * as \"default\" from \"./image\";\n" ⟨"@/", "/app/src"⟩]

theorem gallery_ordered : gallery.Ordered := by
  unfold Project.Ordered
  decide +kernel

theorem gallery_lists : gallery.Ordered ∧ ∃ modules : List SourceFile,
    modules.Pairwise (·.path < ·.path) ∧
    (∀ f, f ∈ modules ↔ f ∈ gallery.files ∧ f.isVendored = false ∧ f.isDeclarationFile = false ∧
      ∃ specifier, f.specifier? = some specifier) ∧
    (∀ maxModules maxEntries : Option Nat,
      (gallery.surface (maxModules.map Int.ofNat) (maxEntries.map Int.ofNat)).1.entries =
        firstOf maxEntries (ExportEntry.firstByName ((firstOf maxModules modules).flatMap fun f =>
          f.defaultEntry.toList ++ f.namedEntries.filter (·.name ≠ "default")))) ∧
    ∀ maxModules maxModules' maxEntries maxEntries' : Option Nat,
      Within maxModules maxModules' → Within maxEntries maxEntries' →
      (gallery.surface (maxModules.map Int.ofNat) (maxEntries.map Int.ofNat)).1.entries <+:
        (gallery.surface (maxModules'.map Int.ofNat) (maxEntries'.map Int.ofNat)).1.entries :=
  ⟨gallery_ordered, Project.surface_lists gallery_ordered⟩

/-- All three modules can be offered, and the last one has a named export. It is not in the
surface. -/
theorem gallery_withholds : gallery.Ordered ∧ gallery.offering = gallery.files ∧
    (∃ f ∈ gallery.files, f.namedEntries =
      [⟨"default", "@/index", false, some "/app/src/index.ts"⟩]) ∧
    (gallery.surface none none).1.entries ≠
      ExportEntry.firstByName
        (gallery.files.flatMap fun f => f.defaultEntry.toList ++ f.namedEntries) := by
  refine ⟨gallery_ordered, by decide +kernel, ?_, by decide +kernel⟩
  exact ⟨_, List.mem_cons_of_mem _ (List.mem_cons_of_mem _ List.mem_cons_self), by decide +kernel⟩

end ModuleRepair
