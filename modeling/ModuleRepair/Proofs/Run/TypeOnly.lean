import ModuleRepair.Proofs.BuildLog.Log
import ModuleRepair.Proofs.BuildLog.Reported
import ModuleRepair.Proofs.Diagnostic.Lasting
import ModuleRepair.Proofs.SourceFile.TypeOnly

/-!
# Which passes mix type imports

No pass looks for mixed type imports. Organizing and single repairs write one in exactly the cases
that are given here; over a list of diagnostics or a whole log, none is written as long as type
imports with several named bindings bind none of the reported names (`type_imports_mix`).
-/
namespace ModuleRepair

open ModuleRepair.Script ModuleRepair.SourceFile

/-- A declaration that does not mix types, and that reports of some names will not make do so: a
type import of one of them has no other named binding. -/
structure Import.Clear (names : String → Prop) (d : Import) : Prop where
  unmixed : ¬d.Mixes
  alone : d.typeOnly = true → (∃ b ∈ d.named, names b.localName) → d.named.length ≤ 1

namespace Import.Clear

variable {names : String → Prop} {d new : Import} {name : String}

theorem of_values (typed : d.typeOnly = false) : d.Clear names where
  unmixed mixes := by
    rw [mixes.1] at typed
    cases typed
  alone type := by
    rw [type] at typed
    cases typed

theorem normal : d.normal.Clear names ↔ d.Clear names := by
  have length : d.normal.named.length = d.named.length := by simp [Import.normal]
  have bound : (∃ b ∈ d.normal.named, names b.localName) ↔ ∃ b ∈ d.named, names b.localName := by
    simp [Import.normal]
  have typed (some : ∃ b ∈ d.named, names b.localName) : d.normal.typeOnly = d.typeOnly := by
    obtain ⟨b, hb, -⟩ := some
    simp [Import.normal, isSideEffect, List.ne_nil_of_mem hb]
  constructor
  · rintro ⟨unmixed, alone⟩
    refine ⟨fun mixes => unmixed (mixes_normal.mpr mixes), fun type some => ?_⟩
    exact length ▸ alone ((typed some).trans type) (bound.mpr some)
  · rintro ⟨unmixed, alone⟩
    refine ⟨fun mixes => unmixed (mixes_normal.mp mixes), fun type some => ?_⟩
    have some := bound.mp some
    exact length ▸ alone ((typed some).symm.trans type) some

/-- A switched binding of a reported name leaves none behind in a type import. -/
theorem switched (clear : d.Clear names) (letters : name ≠ "") (reported : names name)
    (h : d.namedToDefault? name = some new) : new.Clear names := by
  obtain ⟨-, front, b, back, split, bound, -, eq⟩ := Import.namedToDefault?_eq_some h
  have few (type : d.typeOnly = true) : d.named.length ≤ 1 :=
    clear.alone type ⟨b, by simp [split], bound ▸ reported⟩
  constructor
  · intro mixes
    obtain ⟨type, several⟩ := (mixes_of_namedToDefault? letters h).mp mixes
    have := few type
    omega
  · intro type _
    subst eq
    have := few type
    rw [split] at this
    simp only [List.length_append, List.length_cons] at this ⊢
    omega

/-- A type import with a default name binds nothing else in braces. -/
theorem bindByName (clear : d.Clear names) (parsed : d.Parsed) (bound : d.defaultName.isSome = true)
    (name : String) : ∀ e ∈ Repairs.bindByName d name, e.Clear names := by
  have default : given d.defaultName ≠ none := by
    rw [parsed.given_defaultName]
    exact Option.isSome_iff_ne_none.mp bound
  have named (namespaceName : Option String) :
      (Import.defaultToNamed { d with namespaceName } name).Clear names := by
    refine ⟨fun mixes => mixes.2.1 rfl, fun type _ => ?_⟩
    have none : d.named = [] := Classical.byContradiction fun some =>
      clear.unmixed ⟨type, default, some⟩
    simp [Import.defaultToNamed, Import.withNamed, none, sortNamed, distinct]
  unfold Repairs.bindByName
  split
  · have apart : ({ d with defaultName := none } : Import).Clear names :=
      ⟨fun mixes => mixes.2.1 rfl, clear.alone⟩
    simpa using ⟨apart, named none⟩
  · simpa using named d.namespaceName

end Import.Clear

/-! ## Lists of diagnostics -/

variable {names : String → Prop} {files : SourceFile → Prop} {f g : SourceFile} {o o' : Outline}
  {ds ds' cs : List Import} {name : String} {w : Work}

namespace Repairs

variable {r : Repairs} {root : AliasRoot} {own : Option String} {fixes : List Fix}

theorem clear_of_offered? {d : Import} (h : r.offered? own name = some d) : d.Clear names := by
  have fresh (specifier : String) (isDefault : Bool) :
      (importOf name specifier isDefault).Clear names := by
    refine .of_values ?_
    unfold importOf
    split <;> rfl
  unfold offered? at h
  split at h
  · obtain rfl := Option.some.inj h
    exact fresh ..
  · obtain ⟨e, -, rfl⟩ := Option.map_eq_some_iff.mp h
    exact fresh ..

/-- Fixes that switch reported names only keep clear what is clear. -/
theorem clear_of_repairing {e : Edit}
    (reported : ∀ name specifier, .importDefault name specifier ∈ fixes → name ≠ "" ∧ names name)
    (parsed : ∀ d ∈ ds, d.Parsed) (clear : ∀ d ∈ ds, d.Clear names)
    (he : Repairing r root own fixes ds e) : ∀ d ∈ e.imports ds, d.Clear names := by
  cases he with
  | @byName name specifier i d there hd bound leads =>
    refine Edit.forall_imports_replace hd (fun here => ?_) clear
    exact here.bindByName (parsed d (List.mem_of_getElem? hd)) bound name
  | @byDefault name specifier i d new there hd leads converted =>
    obtain ⟨letters, isName⟩ := reported name specifier there
    refine Edit.forall_imports_replace hd (fun here => ?_) clear
    simpa using here.switched letters isName converted
  | @added name d there fresh offered =>
    exact List.forall_mem_append.mpr ⟨clear, by simpa using clear_of_offered? offered⟩
  | @corrected specifier collapsed i d there found hd same =>
    refine Edit.forall_imports_replace hd (fun here => ?_) clear
    simpa using ⟨here.unmixed, here.alone⟩

theorem clear_of_edited (h : Rereads (Repairing r root own fixes) files)
    (reported : ∀ name specifier, .importDefault name specifier ∈ fixes → name ≠ "" ∧ names name)
    (hf : files f) (hr : f.read = .ok (some o)) (clear : ∀ d ∈ o.imports, d.Clear names)
    (edits : Edited (Repairing r root own fixes) f g) :
    files g ∧ ∃ o', g.read = .ok (some o') ∧ ∀ d ∈ o'.imports, d.Clear names := by
  induction edits with
  | refl => exact ⟨hf, o, hr, clear⟩
  | tail _ edit ih =>
    obtain ⟨hg, o₁, hr₁, clear₁⟩ := ih
    obtain ⟨o₂, e, ho, may, he⟩ := edit
    obtain rfl : o₁ = o₂ := by simpa [outline_of_read hr₁] using ho
    obtain ⟨hk, o', hr', alike, -⟩ := h _ _ _ _ hg hr₁ may he
    have edited := clear_of_repairing reported (parsed_of_read hr₁) clear₁ may
    refine ⟨hk, o', hr', fun d hd => ?_⟩
    obtain ⟨e, he, same⟩ := List.mem_map.mp (alike ▸ List.mem_map_of_mem hd)
    exact Import.Clear.normal.mp (same ▸ Import.Clear.normal.mpr (edited e he))

theorem fixFile_clear {diagnostics : List Diagnostic}
    (h : Rereads (Repairing r w.project.root f.specifier? (r.fixes diagnostics)) files)
    (reported : ∀ name specifier, .importDefault name specifier ∈ r.fixes diagnostics → names name)
    (found : w.project.find? f.path = some f) (hf : files f) (hr : f.read = .ok (some o))
    (clear : ∀ d ∈ o.imports, d.Clear names) :
    ∃ g o', ((r.fixFile f.path diagnostics).run w).2.project.find? f.path = some g ∧
      g.read = .ok (some o') ∧ ∀ d ∈ o'.imports, d.Clear names := by
  obtain ⟨-, g, found', fixed⟩ :=
    fixAll_fixedBy r (upTo r.limit diagnostics) (.refl f.path w.project) found
  have letters : ∀ name specifier, .importDefault name specifier ∈ r.fixes diagnostics →
      name ≠ "" ∧ names name := by
    intro name specifier there
    obtain ⟨d, -, classified⟩ := List.mem_filterMap.mp there
    exact ⟨Fix.boundName_ne_empty classified rfl, reported name specifier there⟩
  obtain ⟨-, o', hr', clear'⟩ :=
    clear_of_edited h letters hf hr clear (fixed.edited fun _ there => there)
  exact ⟨g, o', found', hr', clear'⟩

end Repairs

/-! ## Logs -/

theorem Switches.clear (letters : name ≠ "") (reported : names name) (h : Switches name ds cs ds')
    (clear : ∀ d ∈ ds, d.Clear names) : ∀ d ∈ ds', d.Clear names := by
  induction h with
  | nil => exact clear
  | kept alike _ ih =>
    obtain ⟨here, later⟩ := List.forall_mem_cons.mp clear
    exact List.forall_mem_cons.mpr
      ⟨Import.Clear.normal.mp (alike ▸ Import.Clear.normal.mpr here), ih later⟩
  | switched converted alike _ ih =>
    obtain ⟨here, later⟩ := List.forall_mem_cons.mp clear
    have new := here.switched letters reported converted
    exact List.forall_mem_cons.mpr
      ⟨Import.Clear.normal.mp (alike ▸ Import.Clear.normal.mpr new), ih later⟩

namespace BuildLog

/-- A reported name has letters. -/
theorem name_of_mem_mismatches {log : String} {m : Mismatch} (h : m ∈ mismatches log) :
    m.name ≠ "" := by
  have letters := (stands_of_mem_reports (List.mem_eraseDups.mp h)).1.1
  simpa using letters

/-- Reports of names that all imports are clear of keep them so. -/
theorem repair_clear {directory : String} (switching : ∀ name, Rereads (Switching name) files)
    (notice : Mismatch → LanguageError → Notice) {ms : List Mismatch}
    (reported : ∀ m ∈ ms, m.name ≠ "" ∧ names m.name) (readable : w.project.Readable directory)
    (found : w.project.find? f.path = some f) (hf : files f) (hr : f.read = .ok (some o))
    (clear : ∀ d ∈ o.imports, d.Clear names) :
    let done := (ms.mapM fun m => (repairOne m).orReport [] (notice m)).run w
    ∃ g o', done.2.project.find? f.path = some g ∧ g.read = .ok (some o') ∧
      ∀ d ∈ o'.imports, d.Clear names := by
  induction ms generalizing w f o with
  | nil => exact ⟨f, o, found, hr, clear⟩
  | cons m ms ih =>
    obtain ⟨⟨letters, isName⟩, later⟩ := List.forall_mem_cons.mp reported
    have switches := repairOne_switches readable (switching m.name) m.specifier
    obtain ⟨g, o₁, there, hg, hr₁, -, switched⟩ :=
      switches f (List.mem_of_find?_eq_some found) hf o (outline_of_read hr)
    obtain ⟨mended, booked, -⟩ := repairOne_booked m (notice m) readable
    have same := Project.path_of_find? there
    rw [← same] at there ⊢
    dsimp only
    rw [Step.mapM_cons]
    refine ih later (readable.lead booked.course) ?_ hg (hr₁ hr)
      (switched.clear letters isName clear)
    rw [Attempt.orReport_project]
    exact there

end BuildLog

/-! ## What the passes leave -/

/-- The module under a path is read without errors, and its imports are of a kind. -/
def Leaves (p : Project) (path : String) (kind : List Import → Prop) : Prop :=
  ∃ g o', p.find? path = some g ∧ g.read = .ok (some o') ∧ kind o'.imports

/-- What a report switches in a module mixes types exactly when a type import is concerned that has
several named bindings. -/
theorem SwitchesAll.mixes_iff {p p' : Project} {which : SourceFile → Outline → List Import}
    (letters : name ≠ "") (h : SwitchesAll files p p' name which) (there : f ∈ p.files)
    (hf : files f) (hr : f.read = .ok (some o)) : Leaves p' f.path fun ds =>
      MixesTypes ds ↔ MixesTypes o.imports ∨
        ∃ d ∈ which f o, d.typeOnly = true ∧ 2 ≤ d.named.length := by
  obtain ⟨g, o', found, -, hr', -, switches⟩ := h f there hf o (outline_of_read hr)
  exact ⟨g, o', found, hr' hr, switches.mixes_iff letters⟩

theorem not_mixesTypes_of_clear (clear : ∀ d ∈ ds, d.Clear names) : ¬MixesTypes ds :=
  fun ⟨d, hd, mixes⟩ => (clear d hd).unmixed mixes

/-- **When type imports are mixed.** Each of organizing a module, a reported mismatch and a reported
default import has its case. A list of diagnostics or a log mixes none where none is mixed before
and no reported name is bound by a type import among others. -/
theorem type_imports_mix {directory : String} {r : Repairs} {diagnostics : List Diagnostic}
    (readable : w.project.Readable directory) (there : f ∈ w.project.files) (hf : files f)
    (hr : f.read = .ok (some o)) (organizing : Rereads (Organizing (bindingsOf o.imports)) files)
    (repairing :
      Rereads (Repairs.Repairing r w.project.root f.specifier? (r.fixes diagnostics)) files)
    (switching : ∀ name, Rereads (Switching name) files) :
    (∃ f' o', f.organize = .ok f' ∧ f'.read = .ok (some o') ∧
      (MixesTypes o'.imports ↔ MixesTypes o.imports ∨ Blends o.imports)) ∧
    (∀ name specifier, name ≠ "" →
      Leaves ((BuildLog.repairOne ⟨name, specifier⟩).run w).2.project f.path fun ds =>
        MixesTypes ds ↔ MixesTypes o.imports ∨
          ∃ d ∈ BuildLog.concerns w.project ⟨name, specifier⟩ f o,
            d.typeOnly = true ∧ 2 ≤ d.named.length) ∧
    (∀ (d : Diagnostic) name specifier,
      Fix.classify? d.code d.message = some (.importDefault name specifier) →
      Leaves ((r.fixOne f.path d).run w).2.project f.path fun ds =>
        MixesTypes ds ↔ MixesTypes o.imports ∨
          ∃ d ∈ Repairs.concerns w.project f.path name specifier f o,
            d.typeOnly = true ∧ 2 ≤ d.named.length) ∧
    ((∀ d ∈ o.imports, d.Clear fun name => ∃ specifier,
        .importDefault name specifier ∈ r.fixes diagnostics) →
      Leaves ((r.fixFile f.path diagnostics).run w).2.project f.path fun ds => ¬MixesTypes ds) ∧
    ∀ log, (∀ d ∈ o.imports, d.Clear fun name => ∃ specifier,
        ⟨name, specifier⟩ ∈ BuildLog.mismatches log) →
      Leaves ((BuildLog.repair log).run w).2.project f.path fun ds => ¬MixesTypes ds := by
  have found := readable.ordered.find?_of_mem there
  refine ⟨organize_mixes_iff organizing hf hr, fun name specifier letters => ?_,
    fun d name specifier classified => ?_, fun clear => ?_, fun log clear => ?_⟩
  · exact (BuildLog.repairOne_switches readable (switching name) specifier).mixes_iff
      letters there hf hr
  · exact (Repairs.fixOne_switches classified readable.ordered (switching name)).mixes_iff
      (Fix.boundName_ne_empty classified rfl) there hf hr
  · obtain ⟨g, o', found', hr', clear'⟩ := Repairs.fixFile_clear repairing
      (fun _ specifier there => ⟨specifier, there⟩) found hf hr clear
    exact ⟨g, o', found', hr', not_mixesTypes_of_clear clear'⟩
  · have reported : ∀ m ∈ BuildLog.mismatches log, m.name ≠ "" ∧
        ∃ specifier, ⟨m.name, specifier⟩ ∈ BuildLog.mismatches log :=
      fun m there => ⟨BuildLog.name_of_mem_mismatches there, m.specifier, there⟩
    obtain ⟨g, o', found', hr', clear'⟩ := BuildLog.repair_clear switching
      (fun m => .mismatchFailed m.name m.specifier) reported readable found hf hr clear
    exact ⟨g, o', found', hr', not_mixesTypes_of_clear clear'⟩

/-- Type imports, two of one module and one with two bindings. -/
def orderImports : List Import := [
  { specifier := "./cart", defaultName := some "Cart", typeOnly := true },
  { specifier := "./cart", named := [⟨"Item", none, false⟩], typeOnly := true },
  { specifier := "./menu", named := [⟨"Dish", none, false⟩, ⟨"Menu", none, false⟩],
    typeOnly := true }]

/-- A module of these imports. -/
def orderModule : SourceFile where
  path := "/app/order.ts"
  text := String.intercalate "\n" (orderImports.map (·.render))
  saved := ""
  root := ⟨"@/", "/app"⟩

/-- A project of the module and one that it imports from. -/
def orderWork : Work where
  project := ⟨"/app", ⟨"@/", "/app"⟩, .full, [
    { orderModule with
      path := "/app/menu.ts"
      text := "export interface Dish \x7b\x7d\nexport default class Menu \x7b\x7d\n" },
    orderModule]⟩

/-- A complaint about the last import. -/
def menuComplaint : Diagnostic where
  code := 2614
  message := "Did you mean to use 'import Menu from \"./menu\"' instead?"

theorem orderModule_holdsLines : HoldsLines .typescript orderImports orderModule :=
  ⟨by decide, rfl, by decide, .inl rfl⟩

theorem order_organizing : Rereads (Organizing (bindingsOf (placed 0 orderImports)))
    fun f => ∃ ds, HoldsLines .typescript ds f :=
  organizing_rereads (wellFormed_of_placed orderModule_holdsLines.wellFormed) (.inl rfl)

theorem order_readable : orderWork.project.Readable "/app" where
  ordered := by unfold Project.Ordered; decide +kernel
  directory_eq := rfl
  normal := by decide +kernel
  supported := by decide +kernel

set_option maxRecDepth 10000 in
theorem fixes_menuComplaint :
    Repairs.standardRepairs.fixes [menuComplaint] = [.importDefault "Menu" "./menu"] := by
  decide

/-- Among import lines, fixes that only switch bindings can be read back. -/
theorem repairing_menu_rereads (own : Option String) :
    Rereads (Repairs.Repairing Repairs.standardRepairs orderWork.project.root own
      (Repairs.standardRepairs.fixes [menuComplaint]))
        fun f => ∃ ds, HoldsLines .typescript ds f := by
  intro f o e f' hf hr may he
  have switching : Switching "Menu" o.imports e := by
    rw [fixes_menuComplaint] at may
    cases may with
    | byName there => simp at there
    | added there => simp at there
    | corrected there => simp at there
    | byDefault there hd _ converted =>
      obtain ⟨rfl, -⟩ : _ = "Menu" ∧ _ = "./menu" := by simpa using there
      exact .switched hd converted
  exact switching_rereads f o e f' hf hr switching he

theorem order_mixes : orderWork.project.Readable "/app" ∧ orderModule ∈ orderWork.project.files ∧
    (∃ ds, HoldsLines .typescript ds orderModule) ∧
    orderModule.read = .ok (some { imports := placed 0 orderImports }) ∧
    (∃ f' o', orderModule.organize = .ok f' ∧ f'.read = .ok (some o') ∧
      (MixesTypes o'.imports ↔
        MixesTypes (placed 0 orderImports) ∨ Blends (placed 0 orderImports))) ∧
    (∀ name specifier, name ≠ "" →
      Leaves ((BuildLog.repairOne ⟨name, specifier⟩).run orderWork).2.project orderModule.path
        fun ds => MixesTypes ds ↔ MixesTypes (placed 0 orderImports) ∨
          ∃ d ∈ BuildLog.concerns orderWork.project ⟨name, specifier⟩ orderModule
            { imports := placed 0 orderImports }, d.typeOnly = true ∧ 2 ≤ d.named.length) ∧
    (∀ (d : Diagnostic) name specifier,
      Fix.classify? d.code d.message = some (.importDefault name specifier) →
      Leaves ((Repairs.standardRepairs.fixOne orderModule.path d).run orderWork).2.project
        orderModule.path fun ds => MixesTypes ds ↔ MixesTypes (placed 0 orderImports) ∨
          ∃ d ∈ Repairs.concerns orderWork.project orderModule.path name specifier orderModule
            { imports := placed 0 orderImports }, d.typeOnly = true ∧ 2 ≤ d.named.length) ∧
    ((∀ d ∈ placed 0 orderImports, d.Clear fun name => ∃ specifier,
        .importDefault name specifier ∈ Repairs.standardRepairs.fixes [menuComplaint]) →
      Leaves ((Repairs.standardRepairs.fixFile orderModule.path [menuComplaint]).run
        orderWork).2.project orderModule.path fun ds => ¬MixesTypes ds) ∧
    ∀ log, (∀ d ∈ placed 0 orderImports, d.Clear fun name => ∃ specifier,
        ⟨name, specifier⟩ ∈ BuildLog.mismatches log) →
      Leaves ((BuildLog.repair log).run orderWork).2.project orderModule.path
        fun ds => ¬MixesTypes ds := by
  have lines := orderModule_holdsLines
  have there : orderModule ∈ orderWork.project.files := by simp [orderWork]
  exact ⟨order_readable, there, ⟨_, lines⟩, lines.read,
    type_imports_mix order_readable there ⟨_, lines⟩ lines.read order_organizing
      (repairing_menu_rereads _) fun _ => switching_rereads⟩

/-- No import of the module mixes types. Organizing it mixes the first two, and either repair of
`Menu` the last. -/
theorem order_mixed :
    let mended := (BuildLog.repairOne ⟨"Menu", "@/menu"⟩).run orderWork
    let fixed := (Repairs.standardRepairs.fixFile "/app/order.ts" [menuComplaint]).run orderWork
    orderModule.read = .ok (some { imports := placed 0 orderImports }) ∧
      ¬MixesTypes (placed 0 orderImports) ∧
      (∃ f' o', orderModule.organize = .ok f' ∧ f'.read = .ok (some o') ∧ MixesTypes o'.imports) ∧
      (mended.2.project.find? "/app/order.ts").map (·.text) = some
        ("import type Cart from \"./cart\";\nimport type \x7b Item \x7d from \"./cart\";\n" ++
          "import type Menu, \x7b Dish \x7d from \"./menu\";") ∧
      (fixed.2.project.find? "/app/order.ts").map (·.text) = some
        ("import type Cart from \"./cart\";\nimport type \x7b Item \x7d from \"./cart\";\n" ++
          "import type Menu, \x7b Dish \x7d from \"./menu\";") := by
  have lines := orderModule_holdsLines
  refine ⟨lines.read, ?_, ?_, by decide +kernel, by decide +kernel⟩
  · unfold MixesTypes Import.Mixes
    decide
  · obtain ⟨f', o', organized, hr', mixes⟩ :=
      organize_mixes_iff order_organizing ⟨_, lines⟩ lines.read
    exact ⟨f', o', organized, hr', mixes.mpr (.inr ⟨"./cart", by decide, by decide, by decide⟩)⟩

end ModuleRepair
