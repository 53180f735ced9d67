import ModuleRepair.Export.Surface
import ModuleRepair.Proofs.Project.Order
import ModuleRepair.Proofs.SourceFile.Reread
import ModuleRepair.Proofs.Specifier

/-!
# Importing what a surface offers

An entry of the export surface names a module by its specifier. Resolving the specifier tries paths
in a fixed order, and the path of the module is one of them when its name is plain. So the entry can
be imported exactly when no path tried before is in the index (`Project.surface_resolves`).
-/
namespace ModuleRepair

open ModuleRepair.Text ModuleRepair.Script

/-- The module has what the entry promises: a default export, or a named one of that name. -/
def ExportEntry.HeldBy (e : ExportEntry) (f : SourceFile) : Prop :=
  ∃ o, f.read = .ok (some o) ∧
    if e.isDefault then o.defaultExport.isSome = true else e.name ∈ o.namedExports

/-! ## Entries -/

theorem Surface.mem_addAll {s : Surface} {entries : List ExportEntry} {e : ExportEntry}
    (h : e ∈ (s.addAll entries).entries) : e ∈ s.entries ∨ e ∈ entries := by
  induction entries generalizing s with
  | nil => exact .inl h
  | cons first rest ih =>
    rcases ih h with here | there
    · simp only [add] at here
      split at here
      · exact .inl here
      · split at here
        · exact .inl here
        · rcases List.mem_append.mp here with old | new
          · exact .inl old
          · exact .inr (List.mem_singleton.mp new ▸ List.mem_cons_self)
    · exact .inr (List.mem_cons_of_mem first there)

theorem mem_of_mem_upTo {α : Type} {limit : Option Int} {xs : List α} {x : α}
    (h : x ∈ upTo limit xs) : x ∈ xs := by
  unfold upTo at h
  split at h
  · exact h
  · split at h <;> exact List.mem_of_mem_take h

/-- What a module offers is in it, under its own specifier. A broken module offers nothing. -/
theorem SourceFile.held_of_mem_exports {f : SourceFile} {entries : List ExportEntry}
    {e : ExportEntry} (h : f.exports = .ok entries) (he : e ∈ entries) :
    f.specifier? = some e.specifier ∧ e.path = some f.path ∧ e.HeldBy f := by
  unfold exports at h
  split at h
  · cases h
    cases he
  · next specifier named =>
    cases read : f.read with
    | error fault =>
      simp only [outline, read] at h
      cases h
    | ok found =>
      simp only [outline, read] at h
      cases h
      rcases List.mem_append.mp he with he | he
      · obtain ⟨name, given, rfl⟩ := Option.map_eq_some_iff.mp (Option.mem_toList.mp he)
        cases found with
        | none => cases given
        | some o =>
          refine ⟨named, rfl, o, read, ?_⟩
          cases default : o.defaultExport with
          | none => simp [defaultNameIn, default, ModuleRepair.given] at given
          | some d => rfl
      · obtain ⟨name, listed, rfl⟩ := List.mem_map.mp he
        cases found with
        | none => cases listed
        | some o => exact ⟨named, rfl, o, read, (List.mem_filter.mp listed).1⟩

namespace Project

variable {p : Project} {e : ExportEntry} {maxModules maxEntries : Option Int}

/-- Every entry comes from a module of the index. -/
theorem held_of_mem_surface (h : e ∈ (p.surface maxModules maxEntries).1.entries) :
    ∃ f ∈ p.files, f.specifier? = some e.specifier ∧ e.path = some f.path ∧ e.HeldBy f := by
  obtain ⟨scanned, there, he⟩ := List.mem_flatMap.mp ((Surface.mem_addAll h).resolve_left nofun)
  obtain ⟨f, hf, rfl⟩ := List.mem_map.mp there
  have offering := mem_of_mem_upTo hf
  refine ⟨f, (List.mem_filter.mp (List.mem_filter.mp offering).1).1, ?_⟩
  unfold entriesOf at he
  split at he
  · next read => exact SourceFile.held_of_mem_exports read he
  · cases he

/-! ## Resolving -/

/-- All paths of the project are normal, and its modules have its alias. -/
structure Located (p : Project) : Prop where
  root : ∃ slashes names, Path.Normal slashes names p.root.directory
  file : ∀ f ∈ p.files, f.root = p.root ∧ ∃ slashes names, Path.Normal slashes names f.path

theorem located_load {d : Disk} {directory sourceRoot mark : String} {files : List String}
    {mode : IndexMode} {notices : List Notice}
    (h : load d directory sourceRoot mark files mode = .ok (p, notices)) : p.Located := by
  refine load_induction ⟨Path.normal_absolute _, nofun⟩ (fun p path text located => ?_) h
  refine ⟨located.root, fun f hf => ?_⟩
  rcases mem_insert hf with rfl | hf
  · exact ⟨rfl, Path.normal_absolute path⟩
  · exact located.file f hf

/-- A specifier behind the mark is taken from the directory of the alias, wherever it stands. -/
theorem basePath?_mark (p : Project) (importer below : String) :
    p.basePath? importer (p.root.mark ++ below) =
      some (Path.absolute (Path.join p.root.directory below)) := by
  have marked :
      afterStart? p.root.mark.toList (p.root.mark ++ below).toList = some below.toList := by
    simp [afterStart?]
  rw [basePath?, marked]
  dsimp only
  rw [String.ofList_toList]

/-- Paths that are tried in order lead to a module when none before its own is in the index. -/
theorem findSome?_eq_some_iff {f : SourceFile} (hf : p.find? f.path = some f)
    {paths : List String} (there : f.path ∈ paths) :
    paths.findSome? p.find? = some f ↔ ∀ c ∈ paths.takeWhile (· ≠ f.path), p.find? c = none := by
  induction paths with
  | nil => cases there
  | cons path paths ih =>
    by_cases here : path = f.path
    · simp [here, hf]
    · have rest := ih ((List.mem_cons.mp there).resolve_left (Ne.symm here))
      cases found : p.find? path with
      | none => simpa [here, found] using rest
      | some g =>
        -- Found too early: modules are found under their own paths.
        have other : g ≠ f := fun same => here (by rw [← same, path_of_find? found])
        simp [here, found, other]

/-- **Every entry of the surface stands for a module that holds it.** When the module is plainly
named, the specifier of the entry leads there, from everywhere, exactly if no path that is tried
before is in the index. -/
theorem surface_resolves {d : Disk} {directory sourceRoot mark : String} {files : List String}
    {mode : IndexMode} {notices : List Notice}
    (loaded : load d directory sourceRoot mark files mode = .ok (p, notices))
    (he : e ∈ (p.surface maxModules maxEntries).1.entries) :
    ∃ f, p.find? f.path = some f ∧ e.path = some f.path ∧ e.HeldBy f ∧
      (p.root.PlainlyNamed f.path → ∀ importer, ∃ base,
        p.basePath? importer e.specifier = some base ∧ f.path ∈ candidates base ∧
          (p.resolve? importer e.specifier = some f ↔
            ∀ c ∈ (candidates base).takeWhile (· ≠ f.path), p.find? c = none)) := by
  obtain ⟨f, hf, named, path, held⟩ := held_of_mem_surface he
  have located := located_load loaded
  obtain ⟨sameRoot, slashes, names, normal⟩ := located.file f hf
  obtain ⟨slashes', root, normalRoot⟩ := located.root
  have there := (ordered_load loaded).find?_of_mem hf
  refine ⟨f, there, path, held, fun plain importer => ?_⟩
  rw [SourceFile.specifier?, sameRoot] at named
  obtain ⟨below, specifier, tried⟩ := AliasRoot.mem_candidates normal normalRoot plain named
  have base := p.basePath?_mark importer (String.ofList below)
  rw [← specifier] at base
  refine ⟨_, base, tried, ?_⟩
  rw [resolve?, base]
  exact findSome?_eq_some_iff there tried

end Project

/-- A tree of two modules: an index module, and one whose extension is not tried. -/
def shelf : Disk where
  nodes := [("/app", .directory), ("/app/src", .directory), ("/app/src/cart", .directory),
    ("/app/src/cart/index.ts", .file "export default function cart() \x7b\x7d\n".toUTF8),
    ("/app/src/price.mts", .file "export const price = 1;\n".toUTF8)]

def shelfProject : Project where
  directory := "/app"
  root := ⟨"@/", "/app/src"⟩
  mode := .full
  files := [
    .ofText "/app/src/cart/index.ts" "export default function cart() \x7b\x7d\n" ⟨"@/", "/app/src"⟩,
    .ofText "/app/src/price.mts" "export const price = 1;\n" ⟨"@/", "/app/src"⟩]

theorem load_shelf : Project.load shelf "/app" "src" "@/" [] .full = .ok (shelfProject, []) := by
  have ordered : ["/app/src/cart/index.ts", "/app/src/price.mts"].Pairwise (· < ·) := by decide
  have tree : collectFiles shelf "/app" largestFile =
      ["/app/src/cart/index.ts", "/app/src/price.mts"] := by
    have here : shelf.locate "/app" = .ok "/app" := rfl
    rw [collectFiles, here, ← Project.inPathOrder_of_ordered ordered]
    exact congrArg inPathOrder (by decide +kernel)
  have start : Project.empty "/app" "src" "@/" .full =
      { shelfProject with files := [] } := by decide +kernel
  have paths : (Project.empty "/app" "src" "@/" .full).pathsToLoad shelf [] =
      ["/app/src/cart/index.ts", "/app/src/price.mts"] := by
    rw [start]
    simp only [Project.pathsToLoad, shelfProject, tree, List.map_nil, List.filter_nil,
      List.append_nil, Project.sortedPaths_of_ordered ordered]
  rw [Project.load, if_neg (by decide +kernel)]
  dsimp only
  rw [paths, start]
  exact congrArg Except.ok
    (Prod.ext (by decide +kernel) (List.isEmpty_iff.mp (by decide +kernel)))

def cartEntry : ExportEntry := ⟨"cart", "@/cart", true, some "/app/src/cart/index.ts"⟩

def priceEntry : ExportEntry := ⟨"price", "@/price", false, some "/app/src/price.mts"⟩

theorem surface_shelf :
    (shelfProject.surface none none).1.entries = [cartEntry, priceEntry] := by
  decide +kernel

theorem cart_resolves :
    Project.load shelf "/app" "src" "@/" [] .full = .ok (shelfProject, []) ∧
      cartEntry ∈ (shelfProject.surface none none).1.entries ∧
      ∃ f, shelfProject.find? f.path = some f ∧ cartEntry.path = some f.path ∧
        cartEntry.HeldBy f ∧ shelfProject.root.PlainlyNamed f.path ∧
        ∀ importer, shelfProject.resolve? importer cartEntry.specifier = some f := by
  have listed : cartEntry ∈ (shelfProject.surface none none).1.entries := by
    simp [surface_shelf]
  obtain ⟨f, there, path, held, resolved⟩ := Project.surface_resolves load_shelf listed
  have place : f.path = "/app/src/cart/index.ts" := (Option.some.inj path).symm
  have plain : shelfProject.root.PlainlyNamed f.path := by
    rw [place]
    exact ⟨by decide +kernel, by decide +kernel, by decide +kernel, by decide, by decide +kernel⟩
  refine ⟨load_shelf, listed, f, there, path, held, plain, fun importer => ?_⟩
  obtain ⟨base, known, -, first⟩ := resolved plain importer
  have mark := shelfProject.basePath?_mark importer "cart"
  obtain rfl : base = _ := Option.some.inj (known.symm.trans mark)
  rw [first, place]
  decide +kernel

/-- The extension of the other module is not tried, so its entry leads nowhere. -/
theorem price_lost :
    Project.load shelf "/app" "src" "@/" [] .full = .ok (shelfProject, []) ∧
      (∀ f ∈ shelfProject.files, ∃ o, f.read = .ok (some o)) ∧
      priceEntry ∈ (shelfProject.surface none none).1.entries ∧
      ∀ importer, shelfProject.resolve? importer priceEntry.specifier = none := by
  refine ⟨load_shelf, ?_, by simp [surface_shelf], fun importer => ?_⟩
  · intro f hf
    have sound : f.read.toOption.join.isSome = true := by
      revert f
      decide +kernel
    cases read : f.read with
    | error fault => simp [read, Except.toOption] at sound
    | ok found =>
      obtain ⟨o, rfl⟩ := Option.isSome_iff_exists.mp (by simpa [read, Except.toOption] using sound)
      exact ⟨o, rfl⟩
  · have base := shelfProject.basePath?_mark importer "price"
    have specifier : priceEntry.specifier = shelfProject.root.mark ++ "price" := rfl
    rw [Project.resolve?, specifier, base]
    decide +kernel

end ModuleRepair
