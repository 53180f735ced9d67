import ModuleRepair.Proofs.Repair.Books
import ModuleRepair.Proofs.Script.Offer

/-!
# What the conversion of a default export does to the exports

The conversion marks the first declaration of a name as exported and takes the default export of the
name away. This is all it does to the exports of a module, provided that the module is read back
that way. So its named exports are those from before and the name, each once, just when the name is
declared alone and exported nowhere else (`Convertible`).
-/
namespace ModuleRepair

open ModuleRepair.Text ModuleRepair.Script ModuleRepair.SourceFile

namespace SourceFile

/-- The statements of a module that is read without errors. -/
def items? (f : SourceFile) : Option (List Item) :=
  (Language.ofPath? f.path).bind fun l => Script.items? l f.text.toList

/-- What the statements of a module offer. -/
def offers? (f : SourceFile) : Option (List Offer) :=
  f.items?.map (·.map Item.offer)

theorem read_of_items? {f : SourceFile} {items : List Item} (h : f.items? = some items) :
    f.read = .ok (some (Outline.ofItems items)) := by
  obtain ⟨l, hl, read⟩ := Option.bind_eq_some_iff.mp h
  exact read_of_outline? (l := l) (by simp [Language.ofPath, hl]) (by simp [outline?, read])

/-- In every module of a set, marking a declaration of the name as exported changes what this
statement offers and nothing else, and so does taking the default export of the name away. -/
structure RereadsExports (name : String) (files : SourceFile → Prop) : Prop where
  marked : ∀ {f front d span back}, files f →
    f.items? = some (front ++ ⟨.declaration d, span⟩ :: back) → name ∈ d.names →
    files (f.replaceSpan ⟨d.span.start, d.span.start⟩ "export ") ∧
      (f.replaceSpan ⟨d.span.start, d.span.start⟩ "export ").offers? =
        some (front.map Item.offer ++ .exported d.names :: back.map Item.offer)
  removed : ∀ {f front span back}, files f →
    f.items? = some (front ++ ⟨.exportDefault (.identifier name), span⟩ :: back) →
    files (f.removeStatement span) ∧
      (f.removeStatement span).offers? = some (front.map Item.offer ++ back.map Item.offer)

variable {name : String} {files : SourceFile → Prop} {f : SourceFile} {items : List Item}

/-- Marking leaves the offers as they are, or exports one declaration of the name. -/
theorem markExported_offers (rereads : RereadsExports name files) (hf : files f)
    (hr : f.items? = some items)
    (declared : ((Outline.ofItems items).declaration? name).isSome = true) :
    ∃ marked?, f.markExported name = .ok marked? ∧ (marked?.getD f).path = f.path ∧
      files (marked?.getD f) ∧ ∃ marked, (marked?.getD f).items? = some marked ∧
        Marks name (items.map Item.offer) (marked.map Item.offer) := by
  obtain ⟨d, hd⟩ := Option.isSome_iff_exists.mp declared
  simp only [markExported, outline_of_read (read_of_items? hr), bind, Except.bind, hd]
  cases already : d.exported with
  | true =>
    refine ⟨none, rfl, rfl, hf, items, hr, .already ?_⟩
    have named : d.name = name := by simpa using List.find?_some hd
    rw [← declarations_offers, List.mem_map]
    exact ⟨d, List.mem_of_find?_eq_some hd, by rw [named, already]⟩
  | false =>
    obtain ⟨front, declared, span, back, rfl, there, place⟩ := split_of_declaration? hd already
    obtain ⟨hg, offers⟩ := rereads.marked hf hr there
    obtain ⟨marked, reread, offers⟩ := Option.map_eq_some_iff.mp offers
    rw [place]
    refine ⟨some _, rfl, rfl, hg, marked, reread, ?_⟩
    rw [offers, List.map_append, List.map_cons, offer_declaration]
    exact .one there

/-- Taking the default export away takes its statement's offer away. -/
theorem removeDefaultExport_offers (rereads : RereadsExports name files) (hf : files f)
    (hr : f.items? = some items)
    (default : (items.map Item.offer).findSome? (·.default) = some (.identifier, some name)) :
    ∃ g, f.removeDefaultExport = .ok (some g) ∧ g.path = f.path ∧ ∃ rest front back,
      g.items? = some rest ∧ items.map Item.offer = front ++ .byDefault name :: back ∧
        rest.map Item.offer = front ++ back := by
  rw [← defaultExport_kind] at default
  obtain ⟨⟨kind, name', span⟩, here, same⟩ := Option.map_eq_some_iff.mp default
  cases same
  obtain ⟨front, back, rfl⟩ := split_of_defaultExport here
  obtain ⟨-, offers⟩ := rereads.removed hf hr
  obtain ⟨rest, reread, offers⟩ := Option.map_eq_some_iff.mp offers
  refine ⟨f.removeStatement span, ?_, rfl, rest, front.map Item.offer, back.map Item.offer, reread,
    ?_, offers⟩
  · simp only [removeDefaultExport, outline_of_read (read_of_items? hr), bind, Except.bind, here]
    rfl
  · rw [List.map_append, List.map_cons]
    rfl

end SourceFile

/-- Marking a declaration changes no default export. -/
theorem Script.Marks.default {name : String} {offers marked : List Offer}
    (h : Marks name offers marked) :
    marked.findSome? (·.default) = offers.findSome? (·.default) := by
  cases h with
  | already _ => rfl
  | one _ => simp [List.findSome?_append, Offer.exported, Offer.unexported]

namespace Normalize

variable {name : String} {files : SourceFile → Prop} {f : SourceFile} {items : List Item}
  {span : Span}

/-- A module is left with the offers of its statements but one, perhaps with one marked. -/
theorem exportByName_offers (rereads : RereadsExports name files) (hf : files f)
    (hr : f.items? = some items)
    (default : (Outline.ofItems items).defaultExport = some ⟨.identifier, some name, span⟩)
    (declared : ((Outline.ofItems items).declaration? name).isSome = true) :
    ∃ g rest front back, exportByName f name = .ok g ∧ g.path = f.path ∧
      g.items? = some rest ∧ rest.map Item.offer = front ++ back ∧
      Marks name (items.map Item.offer) (front ++ .byDefault name :: back) := by
  obtain ⟨marked?, marking, path, hg, marked, reread, marks⟩ :=
    markExported_offers rereads hf hr declared
  have kept : (marked.map Item.offer).findSome? (·.default) = some (.identifier, some name) := by
    rw [marks.default, ← defaultExport_kind, default]
    rfl
  obtain ⟨g, removing, path', rest, front, back, hg', split, offers⟩ :=
    removeDefaultExport_offers rereads hg reread kept
  refine ⟨g, rest, front, back, ?_, path'.trans path, hg', offers, split ▸ marks⟩
  simp only [exportByName, marking, removing, bind, Except.bind]
  rfl

/-- What the conversion is meant to do, as the modules before and after are read. -/
theorem converted_iff_outline {rest : List Item} :
    Converted (items.map Item.offer) (rest.map Item.offer) name ↔
      (Outline.ofItems rest).defaultExport = none ∧
      (Outline.ofItems rest).namedExports.Nodup ∧
      (∀ n, n ∈ (Outline.ofItems rest).namedExports ↔
        n ∈ (Outline.ofItems items).namedExports ∨ n = name) ∧
      ∀ d ∈ (Outline.ofItems rest).declarations, d.name = name → d.exported = true := by
  have exported : (∀ d ∈ (Outline.ofItems rest).declarations, d.name = name → d.exported = true) ↔
      ∀ d ∈ (rest.map Item.offer).flatMap (·.declared), d.1 = name → d.2 = true := by
    rw [← declarations_offers]
    simp
  rw [defaultExport_offers, namedExports_offers, namedExports_offers, exported]
  exact ⟨fun h => ⟨h.noDefault, h.nodup, h.names, h.exported⟩,
    fun ⟨noDefault, nodup, names, exported⟩ => ⟨noDefault, nodup, names, exported⟩⟩

/-! ## The run -/

theorem importer_eq_ok {target : String} {l : Language} (h : Language.ofPath f.path = .ok l)
    (w : Work) : ∃ path w', (importer target name f).run w = (.ok path, w') := by
  refine Attempt.rewrite_eq_ok (fun p => p.rewriteImporter target name f) (fun p => ?_) w
  obtain ⟨g, count, result, -⟩ := rewriteImporter_rebinds h p target name
  exact ⟨g, count, result⟩

/-- **The conversion changes the exports as it should, just when the name can be converted.** -/
theorem module_converts_iff {w : Work}
    (languages : ∀ g ∈ w.project.files, ∃ l, Language.ofPath g.path = .ok l)
    (rereads : RereadsExports name files) (hf : files f) (hr : f.items? = some items)
    (default : (Outline.ofItems items).defaultExport = some ⟨.identifier, some name, span⟩)
    (declared : ((Outline.ofItems items).declaration? name).isSome = true)
    (nodup : (Outline.ofItems items).namedExports.Nodup) :
    ∃ touched w' g o, (module f).run w = (.ok touched, w') ∧
      w'.project.find? f.path = some g ∧ g.read = .ok (some o) ∧
      ((o.defaultExport = none ∧ o.namedExports.Nodup ∧
          (∀ n, n ∈ o.namedExports ↔ n ∈ (Outline.ofItems items).namedExports ∨ n = name) ∧
          ∀ d ∈ o.declarations, d.name = name → d.exported = true) ↔
        Convertible (items.map Item.offer) name) := by
  obtain ⟨g, rest, front, back, exporting, path, reread, offers, marks⟩ :=
    exportByName_offers rereads hf hr default declared
  have convertible : convertibleName? (Outline.ofItems items) = some name := by
    simp only [convertibleName?, default, declared, if_true]
  -- The modules that import the default are rewritten first, which cannot fail.
  have others : ∀ h ∈ w.project.files.filter (·.path ≠ f.path), ∀ w,
      ∃ path w', (importer f.path name h).run w = (.ok path, w') := fun h hh w => by
    obtain ⟨l, hl⟩ := languages h (List.mem_filter.mp hh).1
    exact importer_eq_ok hl w
  obtain ⟨touched, w', importers⟩ := Attempt.filterMapM_eq_ok others w
  have run := module_run f w
  simp only [outline_of_read (read_of_items? hr), convertible, importers, exporting] at run
  refine ⟨_, _, g, Outline.ofItems rest, run, ?_, read_of_items? reread, ?_⟩
  · rw [← path]
    exact Project.find?_put ..
  · rw [← converted_iff_outline, offers]
    refine converted_iff (fun x hx n exported => ?_) (by rwa [← namedExports_offers]) marks
    obtain ⟨item, -, rfl⟩ := List.mem_map.mp hx
    exact mem_named_of_exported exported

/-- A module of a given text. -/
def pricing (text : String) : SourceFile where
  path := "/app/price.ts"
  text
  saved := ""
  root := ⟨"@/", "/app"⟩

/-- A project of one module. -/
def workOf (f : SourceFile) : Work where
  project := ⟨"/app", ⟨"@/", "/app"⟩, .full, [f]⟩

/-- A module whose default export can be converted. -/
def plainPrices : SourceFile :=
  pricing "function price() {}\nexport default price;\n"

/-- The module and what may become of it. -/
def convertiblePrices : List SourceFile :=
  [plainPrices, pricing "export function price() {}\nexport default price;\n",
    pricing "function price() {}\n", pricing "export function price() {}\n"]

/-- The statements of the module. -/
def priceItems : List Item :=
  [⟨.declaration ⟨.function, ["price"], ⟨0, 19⟩⟩, ⟨0, 19⟩⟩,
    ⟨.exportDefault (.identifier "price"), ⟨20, 41⟩⟩]

/-- The statements of the module with the declaration marked. -/
def markedItems : List Item :=
  [⟨.exportDeclaration ⟨.function, ["price"], ⟨7, 26⟩⟩, ⟨0, 26⟩⟩,
    ⟨.exportDefault (.identifier "price"), ⟨27, 48⟩⟩]

set_option maxRecDepth 100000 in
theorem convertiblePrices_items : convertiblePrices.map (·.items?) =
    [some priceItems, some markedItems, some (priceItems.take 1), some (markedItems.take 1)] := by
  decide +kernel

/-- The places of one statement among two at most. -/
theorem split_two {a b x : Item} {front back : List Item} (h : [a, b] = front ++ x :: back) :
    front = [] ∧ a = x ∧ back = [b] ∨ front = [a] ∧ b = x ∧ back = [] := by
  rcases front with _ | ⟨c, _ | ⟨c', front⟩⟩ <;> simp_all

theorem split_one {a x : Item} {front back : List Item} (h : [a] = front ++ x :: back) :
    front = [] ∧ a = x ∧ back = [] := by
  rcases front with _ | ⟨c, front⟩ <;> simp_all

set_option maxRecDepth 100000 in
theorem rereads_convertiblePrices : RereadsExports "price" (· ∈ convertiblePrices) where
  marked {f front d span back} hf hr there := by
    obtain ⟨h₀, h₁, h₂, h₃⟩ : _ ∧ _ ∧ _ ∧ _ := by
      simpa [convertiblePrices] using convertiblePrices_items
    simp only [convertiblePrices, List.mem_cons, List.not_mem_nil, or_false] at hf
    rcases hf with rfl | rfl | rfl | rfl
    · rw [h₀] at hr
      rcases split_two (Option.some.inj hr) with ⟨rfl, same, rfl⟩ | ⟨rfl, same, rfl⟩
      · cases same
        decide +kernel
      · cases same
    · rw [h₁] at hr
      rcases split_two (Option.some.inj hr) with ⟨rfl, same, rfl⟩ | ⟨rfl, same, rfl⟩ <;> cases same
    · rw [h₂] at hr
      obtain ⟨rfl, same, rfl⟩ := split_one (Option.some.inj hr)
      cases same
      decide +kernel
    · rw [h₃] at hr
      obtain ⟨rfl, same, rfl⟩ := split_one (Option.some.inj hr)
      cases same
  removed {f front span back} hf hr := by
    obtain ⟨h₀, h₁, h₂, h₃⟩ : _ ∧ _ ∧ _ ∧ _ := by
      simpa [convertiblePrices] using convertiblePrices_items
    simp only [convertiblePrices, List.mem_cons, List.not_mem_nil, or_false] at hf
    rcases hf with rfl | rfl | rfl | rfl
    · rw [h₀] at hr
      rcases split_two (Option.some.inj hr) with ⟨rfl, same, rfl⟩ | ⟨rfl, same, rfl⟩ <;> cases same
      decide +kernel
    · rw [h₁] at hr
      rcases split_two (Option.some.inj hr) with ⟨rfl, same, rfl⟩ | ⟨rfl, same, rfl⟩ <;> cases same
      decide +kernel
    · rw [h₂] at hr
      obtain ⟨rfl, same, rfl⟩ := split_one (Option.some.inj hr)
      cases same
    · rw [h₃] at hr
      obtain ⟨rfl, same, rfl⟩ := split_one (Option.some.inj hr)
      cases same

set_option maxRecDepth 100000 in
theorem plainPrices_converts :
    (∀ g ∈ (workOf plainPrices).project.files, ∃ l, Language.ofPath g.path = .ok l) ∧
    RereadsExports "price" (· ∈ convertiblePrices) ∧ plainPrices ∈ convertiblePrices ∧
    plainPrices.items? = some priceItems ∧
    (Outline.ofItems priceItems).defaultExport = some ⟨.identifier, some "price", ⟨20, 41⟩⟩ ∧
    ((Outline.ofItems priceItems).declaration? "price").isSome = true ∧
    (Outline.ofItems priceItems).namedExports.Nodup ∧
    ∃ touched w' g o, (module plainPrices).run (workOf plainPrices) = (.ok touched, w') ∧
      w'.project.find? "/app/price.ts" = some g ∧ g.read = .ok (some o) ∧
      ((o.defaultExport = none ∧ o.namedExports.Nodup ∧
          (∀ n, n ∈ o.namedExports ↔
            n ∈ (Outline.ofItems priceItems).namedExports ∨ n = "price") ∧
          ∀ d ∈ o.declarations, d.name = "price" → d.exported = true) ↔
        Convertible (priceItems.map Item.offer) "price") := by
  have languages : ∀ g ∈ (workOf plainPrices).project.files,
      ∃ l, Language.ofPath g.path = .ok l := by
    intro g hg
    obtain rfl := List.mem_singleton.mp hg
    exact ⟨.typescript, rfl⟩
  have there : plainPrices ∈ convertiblePrices := List.mem_cons_self
  have items : plainPrices.items? = some priceItems := (List.cons.inj convertiblePrices_items).1
  have default : (Outline.ofItems priceItems).defaultExport =
      some ⟨.identifier, some "price", ⟨20, 41⟩⟩ := by decide
  have declared : ((Outline.ofItems priceItems).declaration? "price").isSome = true := by decide
  have nodup : (Outline.ofItems priceItems).namedExports.Nodup := by decide
  exact ⟨languages, rereads_convertiblePrices, there, items, default, declared, nodup,
    module_converts_iff languages rereads_convertiblePrices there items default declared nodup⟩

example : Convertible (priceItems.map Item.offer) "price" := ⟨by decide, .inr (by decide)⟩

/-- A module that lists the name among its exports as well. -/
def listedPrices : SourceFile :=
  pricing "function price() {}\nexport \x7b price \x7d;\nexport default price;\n"

set_option maxRecDepth 100000 in
/-- A name that stands in an export clause already is exported twice. -/
theorem listedPrices_twice :
    listedPrices.items?.map (fun items => (convertibleName? (Outline.ofItems items),
        (Outline.ofItems items).namedExports)) = some (some "price", ["price"]) ∧
    ∃ g, ((module listedPrices).run (workOf listedPrices)).2.project.find? "/app/price.ts" =
        some g ∧
      g.items?.map (fun items => (Outline.ofItems items).namedExports) =
        some ["price", "price"] ∧
      ¬ ["price", "price"].Nodup := by
  refine ⟨by decide +kernel, pricing "export function price() {}\nexport \x7b price \x7d;\n", ?_⟩
  exact ⟨by decide +kernel, by decide +kernel, by decide⟩

end Normalize

end ModuleRepair
