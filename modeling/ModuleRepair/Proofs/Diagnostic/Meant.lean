import ModuleRepair.Proofs.Diagnostic.Applies
import ModuleRepair.Proofs.Project.Tail

/-!
# Which import a report means

A report names a module by a specifier that need not stand in the file. The first import with that
very specifier is taken for the one that is meant, and otherwise the first one whose tail matches
(`Meant`). The former leads to the module; the latter does so if no other module may be meant by the
shorter tail (`importByName_converts_meant`).
-/
namespace ModuleRepair.Repairs

open ModuleRepair.Script ModuleRepair.SourceFile

/-- The first import of a condition. -/
def FirstOf (q : Import → Prop) (ds : List Import) (d : Import) : Prop :=
  ∃ front back, ds = front ++ d :: back ∧ q d ∧ ∀ d' ∈ front, ¬q d'

theorem find?_eq_some_iff_firstOf {q : Import → Bool} {ds : List Import} {d : Import} :
    ds.find? q = some d ↔ FirstOf (q · = true) ds d := by
  rw [List.find?_eq_some_iff_append]
  constructor
  · rintro ⟨here, front, back, rfl, before⟩
    exact ⟨front, back, rfl, here, fun d' hd' => by simpa using before d' hd'⟩
  · rintro ⟨front, back, rfl, here, before⟩
    exact ⟨here, front, back, rfl, fun d' hd' => by simpa using before d' hd'⟩

/-- The import of a condition that a specifier is taken to mean. -/
inductive Meant (r : AliasRoot) (specifier : String) (q : Import → Bool) (ds : List Import)
    (d : Import) : Prop
  /-- It is written with this very specifier. -/
  | spelled (first : FirstOf (fun d => d.specifier = specifier ∧ q d = true) ds d)
  /-- No other is, and the tails match. -/
  | matching (other : ∀ d' ∈ ds, d'.specifier = specifier → q d' = false)
      (first : FirstOf (fun d => r.matchesPath d.specifier specifier = true ∧ q d = true) ds d)

variable {r : AliasRoot} {p : Project} {f t : SourceFile} {o : Outline} {q : Import → Bool}
  {d : Import} {name specifier : String}

theorem findImport?_eq_some_iff :
    findImport? r o specifier q = some d ↔ Meant r specifier q o.imports d := by
  have none : (o.imports.find? fun d => d.specifier = specifier && q d) = none ↔
      ∀ d' ∈ o.imports, d'.specifier = specifier → q d' = false := by
    simp [List.find?_eq_none]
  simp only [findImport?, Option.or_eq_some_iff, none, find?_eq_some_iff_firstOf, Bool.and_eq_true,
    decide_eq_true_eq]
  constructor
  · rintro (first | ⟨other, first⟩)
    · exact .spelled first
    · exact .matching other first
  · rintro (first | ⟨other, first⟩)
    · exact .inl first
    · exact .inr ⟨other, first⟩

/-- An import is meant as soon as one leads to the specifier. -/
theorem exists_meant : (∃ d, Meant r specifier q o.imports d) ↔
    ∃ d ∈ o.imports, q d = true ∧ Leads r d.specifier specifier := by
  constructor
  · rintro ⟨d, meant⟩
    obtain ⟨hd, leads, fits⟩ := findImport?_eq_some (findImport?_eq_some_iff.mpr meant)
    exact ⟨d, hd, fits, leads⟩
  · rintro ⟨d, hd, fits, leads⟩
    obtain ⟨d', found⟩ := Option.ne_none_iff_exists'.mp fun none =>
      findImport?_eq_none.mp none d hd fits leads
    exact ⟨d', findImport?_eq_some_iff.mp found⟩

/-- An import with the very specifier is preferred. -/
theorem Meant.specifier_eq (h : Meant r specifier q o.imports d)
    (there : ∃ d ∈ o.imports, d.specifier = specifier ∧ q d = true) : d.specifier = specifier := by
  cases h with
  | spelled first =>
    obtain ⟨-, -, -, here, -⟩ := first
    exact here.1
  | matching other _ =>
    obtain ⟨d', hd', same, fits⟩ := there
    rw [other d' hd' same] at fits
    cases fits

/-- An import with another specifier leads to the module of the report, if the shorter tail can mean
no other one. -/
theorem Meant.resolves {importer : String} {g : SourceFile}
    (h : Meant p.root specifier q o.imports d)
    (resolved : p.resolve? importer specifier = some t) (plain : p.root.PlainTail d.specifier)
    (only : ∀ g ∈ p.files, Project.MayMean (p.root.sharedTail d.specifier specifier) g → g = t)
    (found : p.resolve? importer d.specifier = some g) : g = t := by
  cases h with
  | spelled first =>
    obtain ⟨-, -, -, ⟨same, -⟩, -⟩ := first
    rw [same, resolved] at found
    exact (Option.some.inj found).symm
  | matching _ first =>
    obtain ⟨-, -, -, ⟨same, -⟩, -⟩ := first
    obtain ⟨hg, mayMean⟩ := Project.mayMean_of_matchesPath found plain same
    exact only g hg mayMean

/-- What becomes of a file whose default import is bound by name, and the words for it. -/
def boundByName (f : SourceFile) (name : String) (d : Import) : Repaired :=
  (f.replaceImport d (bindByName d name),
    "default import of '" ++ name ++ "' from '" ++ d.specifier ++ "' → named import")

/-- **Which default import a report converts.** It is the one that the reported specifier is taken
to mean. Where the specifier leads to a module, this import leads there too if any default import is
written with the very specifier; otherwise it leads to no other module, if its tail is made of names
and the shorter tail can mean no other one. There is one as soon as a default import leads to the
same path, when both tails are made of names. -/
theorem importByName_converts_meant (name : String) (ho : f.outline = .ok o)
    (resolved : p.resolve? f.path specifier = some t) :
    ∃ meant : Option Import,
      importByName p f name specifier = .ok (meant.map (boundByName f name)) ∧
      (∀ d, meant = some d ↔
        Meant p.root specifier (fun d => d.defaultName.isSome) o.imports d) ∧
      ((∃ d ∈ o.imports, d.specifier = specifier ∧ d.defaultName.isSome = true) →
        ∃ d ∈ meant, p.resolve? f.path d.specifier = some t) ∧
      (∀ d ∈ meant, p.root.PlainTail d.specifier →
        (∀ g ∈ p.files, Project.MayMean (p.root.sharedTail d.specifier specifier) g → g = t) →
        ∀ g, p.resolve? f.path d.specifier = some g → g = t) ∧
      ((∃ d ∈ o.imports, d.defaultName.isSome = true ∧ p.root.PlainTail d.specifier ∧
          p.basePath? f.path d.specifier = p.basePath? f.path specifier) →
        p.root.PlainTail specifier → meant.isSome = true) := by
  have one (d : Import) (hd : d ∈ o.imports) (fits : d.defaultName.isSome = true)
      (leads : Leads p.root d.specifier specifier) :
      ∃ d, Meant p.root specifier (fun d => d.defaultName.isSome) o.imports d :=
    exists_meant.mpr ⟨d, hd, fits, leads⟩
  refine ⟨findImport? p.root o specifier fun d => d.defaultName.isSome, ?_,
    fun d => findImport?_eq_some_iff, ?_, ?_, ?_⟩
  · simp only [importByName, ho, bind, Except.bind]
    rfl
  · rintro ⟨d, hd, same, fits⟩
    obtain ⟨d', meant⟩ := one d hd fits (.inl same)
    have spelled := meant.specifier_eq ⟨d, hd, same, fits⟩
    exact ⟨d', findImport?_eq_some_iff.mpr meant, by rw [spelled, resolved]⟩
  · intro d found plain only g led
    exact (findImport?_eq_some_iff.mp found).resolves resolved plain only led
  · rintro ⟨d, hd, fits, plain, same⟩ plain'
    obtain ⟨base, led⟩ : ∃ base, p.basePath? f.path specifier = some base := by
      unfold Project.resolve? at resolved
      split at resolved
      · next base led => exact ⟨base, led⟩
      · cases resolved
    have matching := Project.matchesPath_of_basePath? (same.trans led) led plain plain'
    obtain ⟨d', meant⟩ := one d hd fits (.inr matching)
    exact Option.isSome_of_eq_some (findImport?_eq_some_iff.mpr meant)

/-- The imports of a page: a logo and, by a relative path, a header. -/
def hallImports : List Import := [
  { specifier := "../brand/logo", defaultName := some "Logo" },
  { specifier := "../components/header", defaultName := some "Header" }]

/-- The page. -/
def hallPage : SourceFile where
  path := "/src/app/hall.ts"
  text := String.intercalate "\n" (hallImports.map (·.render))
  saved := ""
  root := ⟨"@/", "/src"⟩

/-- The module of the header. -/
def hallHeader : SourceFile :=
  { hallPage with path := "/src/components/header.ts", text := "export const Header = 1;\n" }

/-- A project of the page, the logo and the header. -/
def hallProject : Project where
  directory := "/"
  root := ⟨"@/", "/src"⟩
  mode := .full
  files := [hallPage, { hallPage with path := "/src/brand/logo.ts", text := "" }, hallHeader]

theorem hallPage_holdsLines : HoldsLines .typescript hallImports hallPage :=
  ⟨by decide, rfl, by decide, .inl rfl⟩

/-- A report of the header by its alias converts the relative import. -/
theorem hall_converts_header :
    hallPage.outline = .ok { imports := placed 0 hallImports } ∧
      hallProject.resolve? hallPage.path "@/components/header" = some hallHeader ∧
      ∃ d, importByName hallProject hallPage "Header" "@/components/header" =
          .ok (some (boundByName hallPage "Header" d)) ∧
        d.specifier = "../components/header" ∧
        ∀ g, hallProject.resolve? hallPage.path d.specifier = some g → g = hallHeader := by
  have ho := outline_of_read hallPage_holdsLines.read
  have resolved : hallProject.resolve? hallPage.path "@/components/header" = some hallHeader := by
    decide +kernel
  obtain ⟨meant, converted, meant_iff, -, only, -⟩ :=
    importByName_converts_meant "Header" ho resolved
  have isMeant : Meant hallProject.root "@/components/header" (fun d => d.defaultName.isSome)
      (placed 0 hallImports) ((placed 0 hallImports).getLast (by decide)) :=
    .matching (by decide +kernel) ⟨(placed 0 hallImports).dropLast, [], rfl, by decide +kernel,
      by decide +kernel⟩
  have found := (meant_iff _).mpr isMeant
  refine ⟨ho, resolved, _, by rw [converted, found]; rfl, by decide, ?_⟩
  exact only _ found (by decide +kernel) (by decide +kernel)

/-- Two default imports whose specifiers end alike. -/
def lobbyImports : List Import := [
  { specifier := "./lib/components/header", defaultName := some "Hdr" },
  { specifier := "../components/header", defaultName := some "Header" }]

/-- A page of these imports. -/
def lobbyPage : SourceFile :=
  { hallPage with text := String.intercalate "\n" (lobbyImports.map (·.render)) }

/-- The module that the first one leads to. -/
def lobbyHeader : SourceFile :=
  { hallPage with
    path := "/src/app/lib/components/header.ts"
    text := "export default function Hdr() \x7b\x7d\n" }

/-- A project of the page and the two modules. -/
def lobbyProject : Project :=
  { hallProject with files := [lobbyPage, lobbyHeader, hallHeader] }

theorem lobbyPage_holdsLines : HoldsLines .typescript lobbyImports lobbyPage :=
  ⟨by decide, rfl, by decide, .inl rfl⟩

/-- The second import leads to the module that is reported, and the first one is converted: it ends
with the whole tail. -/
theorem lobby_converts_other : ∃ other header,
    lobbyPage.outline = .ok { imports := [other, header] } ∧
      lobbyProject.resolve? lobbyPage.path "@/components/header" = some hallHeader ∧
      header.defaultName = some "Header" ∧
      lobbyProject.resolve? lobbyPage.path header.specifier = some hallHeader ∧
      importByName lobbyProject lobbyPage "Header" "@/components/header" =
        .ok (some (boundByName lobbyPage "Header" other)) ∧
      (boundByName lobbyPage "Header" other).1.text =
        "import \x7b Header as Hdr \x7d from \"./lib/components/header\";\n" ++
          "import Header from \"../components/header\";" ∧
      lobbyProject.resolve? lobbyPage.path other.specifier = some lobbyHeader ∧
      lobbyHeader ≠ hallHeader := by
  have ho := outline_of_read lobbyPage_holdsLines.read
  refine ⟨(placed 0 lobbyImports).head (by decide), (placed 0 lobbyImports).getLast (by decide), ho,
    by decide +kernel, by decide, by decide +kernel, ?_, by decide +kernel, by decide +kernel,
    by decide⟩
  have isMeant : Meant lobbyProject.root "@/components/header" (fun d => d.defaultName.isSome)
      (placed 0 lobbyImports) ((placed 0 lobbyImports).head (by decide)) :=
    .matching (by decide +kernel) ⟨[], (placed 0 lobbyImports).tail, rfl, by decide +kernel,
      by simp⟩
  simp only [importByName, ho, bind, Except.bind]
  rw [findImport?_eq_some_iff.mpr isMeant]
  rfl

end ModuleRepair.Repairs
