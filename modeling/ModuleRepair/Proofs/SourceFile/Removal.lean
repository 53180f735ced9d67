import ModuleRepair.Proofs.Export.Normalize
import ModuleRepair.Proofs.SourceFile.Around

/-!
# Removing a statement

Removing an import, or a default export that is a name, leaves the other statements as they are
exactly if those in front of it are still read in front (`removal_leaves_others`). They need not be:
without the statement, a line behind it may go on with the one in front (`list_joined`).
-/
namespace ModuleRepair

open ModuleRepair.Text ModuleRepair.Script

namespace SourceFile

variable {f : SourceFile} {o : Outline} {front back : List Item} {gone : Item}

/-- The first statements of a file, as many as the argument says. -/
def opening? (f : SourceFile) (n : Nat) : Option (List Item) :=
  (Language.ofPath? f.path).bind fun l => (firstItems? l f.text.toList n).map (·.1)

theorem items?_of_read (hr : f.read = .ok (some o)) :
    ∃ items, f.items? = some items ∧ o = Outline.ofItems items := by
  unfold read Language.ofPath at hr
  cases language : Language.ofPath? f.path with
  | none => simp [language, bind, Except.bind] at hr
  | some l =>
    simp only [language, bind, Except.bind] at hr
    obtain ⟨items, read, same⟩ := Option.map_eq_some_iff.mp (Except.ok.inj hr)
    refine ⟨items, ?_, same.symm⟩
    rw [SourceFile.items?, language]
    exact read

/-- Whether a file says what another one said, with these imports. -/
structure KeepsOthers (f : SourceFile) (o : Outline) (others : List Import) (g : SourceFile)
    (o' : Outline) : Prop where
  imports : o'.imports.map (·.inText g.text.toList) = others.map (·.inText f.text.toList)
  declarations : o'.declarations.map (·.inText g.text.toList) =
    o.declarations.map (·.inText f.text.toList)
  namedExports : o'.namedExports = o.namedExports

/-- What becomes of the other statements of a file when the one in a span is removed: they are read
as before, those behind it closer to the front by what was taken away, exactly if the file still
opens with those in front of it. Then the file says what it said. -/
def Leaves (f : SourceFile) (o : Outline) (others : List Import) (span : Span)
    (g : SourceFile) : Prop :=
  ∃ front gone back moved, f.items? = some (front ++ gone :: back) ∧ gone.span = span ∧
    back = moved.map (Item.later (byteSize f.text.toList - byteSize g.text.toList)) ∧
    (g.items? = some (front ++ moved) ↔ g.opening? front.length = some front) ∧
    (g.opening? front.length = some front →
      ∃ o', g.read = .ok (some o') ∧ KeepsOthers f o others g o')

theorem removeStatement_leaves (hr : f.items? = some (front ++ gone :: back))
    (plain : gone.statement ≠ .hashBang) (declares : gone.declarations = [])
    (exports : gone.namedExports = []) :
    Leaves f (Outline.ofItems (front ++ gone :: back)) (Outline.ofItems (front ++ back)).imports
      gone.span (f.removeStatement gone.span) := by
  obtain ⟨l, language, read⟩ := Option.bind_eq_some_iff.mp hr
  obtain ⟨text, gap, piece, after, whole, around⟩ := exists_around read plain
  obtain ⟨m, without⟩ := removeStatement_text whole
  rw [← around.span] at without
  obtain ⟨others, rest, behind⟩ := around.exists_others m
  have path : (f.removeStatement gone.span).path = f.path := rfl
  have items_eq : (f.removeStatement gone.span).items? = Script.items? l (m.kept ++ m.rest) := by
    rw [SourceFile.items?, path, language, without]
    rfl
  have opens : (f.removeStatement gone.span).opening? front.length = some front ↔
      ∃ d, firstItems? l (m.kept ++ m.rest) front.length = some (front, d) := by
    rw [opening?, path, language, without]
    simp
  have reads := around.items?_iff m rest
  refine ⟨front, gone, back, others.map (Item.later (byteSize m.kept)), hr, rfl, ?_, ?_, ?_⟩
  · have size := congrArg byteSize m.before_eq
    have size' := congrArg byteSize m.after_eq
    simp only [byteSize_append] at size size'
    have further : byteSize (text ++ gap ++ piece ++ m.right) = byteSize m.kept +
        (byteSize f.text.toList - byteSize (f.removeStatement gone.span).text.toList) := by
      rw [whole, without]
      simp only [byteSize_append]
      omega
    rw [behind, further, List.map_map]
    simp only [Function.comp_def, Item.later_later]
  · rw [items_eq, opens, reads]
  · intro opening
    have items := reads.mpr (opens.mp opening)
    refine ⟨_, read_of_items? (items_eq.trans items), ?_, ?_, ?_⟩
    · rw [imports_content, imports_content, without, whole, around.content_eq m behind]
    · rw [declarations_content, declarations_content, without, whole, around.content_eq m behind]
      simp [Item.content, declares]
    · rw [namedExports_content _ (m.kept ++ m.rest), around.content_eq m behind,
        ← namedExports_content]
      simp [Outline.ofItems, exports]

/-- The statement of an import. -/
theorem split_of_import {items : List Item} {i : Nat} {d : Import}
    (h : (Outline.ofItems items).imports[i]? = some d) : ∃ front gone back,
      items = front ++ gone :: back ∧ gone.import? = some d ∧
        (Outline.ofItems (front ++ back)).imports = (Outline.ofItems items).imports.eraseIdx i := by
  obtain ⟨before, behind, split, rfl⟩ := split_of_getElem? h
  obtain ⟨front, rest, rfl, inFront, others⟩ := List.filterMap_eq_append_iff.mp split
  obtain ⟨none, gone, back, rfl, nothing, here, inBack⟩ := List.filterMap_eq_cons_iff.mp others
  have empty : none.filterMap Item.import? = [] := List.filterMap_eq_nil_iff.mpr nothing
  refine ⟨front ++ none, gone, back, by simp, here, ?_⟩
  rw [split, List.eraseIdx_append_of_length_le (Nat.le_refl _)]
  simp [Outline.ofItems, inFront, inBack, empty]

/-- The statement of a default export that is a name. -/
theorem split_of_identifier {items : List Item} {d : DefaultExport}
    (h : (Outline.ofItems items).defaultExport = some d) (kind : d.kind = .identifier) :
    ∃ name front back, items = front ++ ⟨.exportDefault (.identifier name), d.span⟩ :: back := by
  have named : ∃ name, d = ⟨.identifier, some name, d.span⟩ := by
    obtain ⟨item, -, here⟩ := List.exists_of_findSome?_eq_some h
    unfold Item.defaultExport? at here
    split at here
    · cases here
      cases kind
    · cases here
      exact ⟨_, rfl⟩
    · cases here
      cases kind
    · obtain ⟨x, -, rfl⟩ := Option.map_eq_some_iff.mp here
      split at kind <;> cases kind
    · cases here
  obtain ⟨name, same⟩ := named
  rw [same] at h
  exact ⟨name, split_of_defaultExport h⟩

/-- Removing an import, or a default export that is a name, leaves the other statements as they are
exactly if those in front of it are still read in front. -/
theorem removal_leaves_others (hr : f.read = .ok (some o)) :
    (∀ i d, o.imports[i]? = some d →
      Leaves f o (o.imports.eraseIdx i) d.span (f.removeImport d)) ∧
    ∀ d, o.defaultExport = some d → d.kind = .identifier →
      ∃ g, f.removeDefaultExport = .ok (some g) ∧ Leaves f o o.imports d.span g := by
  obtain ⟨items, read, rfl⟩ := items?_of_read hr
  constructor
  · intro i d there
    obtain ⟨front, gone, back, rfl, here, others⟩ := split_of_import there
    have span := import?_span here
    obtain ⟨statement, place⟩ := gone
    cases statement with
    | importing d' =>
      rw [← others, removeImport, span]
      exact removeStatement_leaves read (ne_hashBang_of_import here) rfl rfl
    | _ => cases here
  · intro d there kind
    obtain ⟨name, front, back, rfl⟩ := split_of_identifier there kind
    refine ⟨f.removeStatement d.span, ?_, ?_⟩
    · simp only [removeDefaultExport, outline_of_read hr, bind, Except.bind, there]
      rfl
    · have others : (Outline.ofItems (front ++ back)).imports = (Outline.ofItems
          (front ++ ⟨.exportDefault (.identifier name), d.span⟩ :: back)).imports := by
        simp only [Outline.ofItems, List.filterMap_append]
        rfl
      rw [← others]
      exact removeStatement_leaves read (ne_hashBang_of_defaultExport rfl) rfl rfl

end SourceFile

/-- A cart whose total is exported by default. -/
def totalCart : SourceFile where
  path := "/shop/src/cart.ts"
  text := "import \x7b sum \x7d from \"./sum\"\nconst total = sum()\nexport default total\n"
  saved := ""
  root := ⟨"@/", "/shop"⟩

def totalOutline : Outline where
  imports := [⟨"./sum", none, none, [⟨"sum", none, false⟩], false, "\"", false, none, ⟨0, 27⟩⟩]
  defaultExport := some ⟨.identifier, some "total", ⟨48, 68⟩⟩
  declarations := [⟨"total", .blockVariable, ⟨28, 47⟩, false⟩]

set_option maxRecDepth 100000 in
theorem totalCart_read : totalCart.read = .ok (some totalOutline) := by
  decide +kernel

theorem totalCart_leaves_others : totalCart.read = .ok (some totalOutline) ∧
    (∀ i d, totalOutline.imports[i]? = some d →
      SourceFile.Leaves totalCart totalOutline (totalOutline.imports.eraseIdx i) d.span
        (totalCart.removeImport d)) ∧
    ∀ d, totalOutline.defaultExport = some d → d.kind = .identifier →
      ∃ g, totalCart.removeDefaultExport = .ok (some g) ∧
        SourceFile.Leaves totalCart totalOutline totalOutline.imports d.span g :=
  ⟨totalCart_read, SourceFile.removal_leaves_others totalCart_read⟩

set_option maxRecDepth 100000 in
example : ((totalCart.removeStatement ⟨48, 68⟩).opening? 2).isSome = true := by
  decide +kernel

/-- A list with an import behind it that keeps the next line apart. -/
def listModule : SourceFile where
  path := "/proj/src/list.ts"
  text := "import \x7b run \x7d from \"./run\"\nconst list = a\n" ++
    "import \x7b b \x7d from \"./b\"\n[list, b].forEach(run)\n"
  saved := ""
  root := ⟨"@/", "/proj"⟩

/-- The import behind the list. -/
def listImport : Import :=
  ⟨"./b", none, none, [⟨"b", none, false⟩], false, "\"", false, none, ⟨43, 66⟩⟩

def listOutline : Outline where
  imports :=
    [⟨"./run", none, none, [⟨"run", none, false⟩], false, "\"", false, none, ⟨0, 27⟩⟩, listImport]
  declarations := [⟨"list", .blockVariable, ⟨28, 42⟩, false⟩]

/-- The outline without the import behind the list. -/
def joinedOutline : Outline where
  imports := listOutline.imports.take 1
  declarations := [⟨"list", .blockVariable, ⟨28, 65⟩, false⟩]

set_option maxRecDepth 100000 in
/-- Without the import, the next line goes on with the list. -/
theorem list_joined : listModule.read = .ok (some listOutline) ∧
    listOutline.imports[1]? = some listImport ∧
    (listModule.removeImport listImport).read = .ok (some joinedOutline) ∧
    ¬ SourceFile.KeepsOthers listModule listOutline (listOutline.imports.eraseIdx 1)
      (listModule.removeImport listImport) joinedOutline := by
  refine ⟨by decide +kernel, rfl, by decide +kernel, fun keeps => ?_⟩
  exact absurd keeps.declarations (by decide +kernel)

end ModuleRepair
