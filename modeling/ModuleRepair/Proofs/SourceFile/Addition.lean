import Mathlib.Data.List.DropRight
import ModuleRepair.Proofs.Import.Order
import ModuleRepair.Proofs.Script.Insertion
import ModuleRepair.Proofs.SourceFile.Removal

/-!
# Adding an import

An import that is added to a file goes on a line of its own behind the last import, or behind the
prologue where nothing is imported, or at the front. The statements behind it are always read as
before. Those in front of it may look at the text that follows: a default export that goes on behind
a comment can end in front of that comment once the import stands there (`operandModule_split`). So
the file holds what it held, and the import behind the other imports, if it still opens with the
statements in front of the import. It does if they are directives and imports as they are rendered,
or a line that names an interpreter (`addImport_lands_last`).
-/
namespace ModuleRepair

open ModuleRepair.Text ModuleRepair.Script

/-! ## The new import -/

/-- The words that no binding can have as its name. -/
def keywords : List String := [
  "await", "break", "case", "catch", "class", "const", "continue", "debugger", "default", "delete",
  "do", "else", "enum", "export", "extends", "false", "finally", "for", "function", "if", "import",
  "in", "instanceof", "new", "null", "return", "super", "switch", "this", "throw", "true", "try",
  "typeof", "var", "void", "while", "with", "yield"]

/-- An ASCII identifier that is no keyword. -/
def isBindingName (name : String) : Bool :=
  name.toList.all isPlainLetter && name.toList.head?.any (!Char.isDigit ·) &&
    !keywords.contains name

theorem spellsWord_of_binding {name : String} (h : isBindingName name = true) :
    spellsWord name.toList = true := by
  simp only [isBindingName, Bool.and_eq_true, List.all_eq_true] at h
  simp only [spellsWord, Bool.and_eq_true, List.all_eq_true]
  exact ⟨fun c hc => isIdentifierPart_of_plain (h.1.1 c hc), h.1.2⟩

/-- A new import of such names can be written, in any language. -/
theorem writable_fresh (l : Language) {specifier : String} {defaultName : Option String}
    {names : List String} (plain : ∀ c ∈ specifier.toList, c ∉ ['"', '\\', '\n', '\r'])
    (default : ∀ name ∈ defaultName, isBindingName name = true)
    (named : ∀ name ∈ names, isBindingName name = true) :
    Writable l (Import.fresh specifier defaultName names) := by
  have other (c : Char) (there : c ∈ specifier.toList) :
      c ∉ "\"".toList ∧ c ≠ '\\' ∧ c ≠ '\n' ∧ c ≠ '\r' := by
    simpa using plain c there
  refine ⟨?_, .inr ⟨rfl, fun b there => ?_⟩, rfl⟩
  · refine {
      quote := .inl rfl
      specifier := other
      defaultName := fun name there => spellsWord_of_binding (default name there)
      namespaceName := nofun
      named := fun b there => ?_
      clause := .inl rfl
      typeOnly := nofun
      attributes := rfl }
    obtain ⟨name, listed, rfl⟩ := exists_of_mem_fresh there
    exact ⟨spellsWord_of_binding (named name listed), nofun⟩
  · obtain ⟨name, -, rfl⟩ := exists_of_mem_fresh there
    rfl

/-! ## Where it is put -/

namespace Script

/-- The statements in front of an added import: those up to the last import, or else the
prologue. -/
def inFront (items : List Item) : List Item :=
  match items.rdropWhile (·.import?.isNone) with
  | [] => items.takeWhile Item.inPrologue
  | front => front

/-- Nothing is imported behind them, and they end with an import, or nothing is imported at all. -/
theorem inFront_spec (items : List Item) : ∃ back, items = inFront items ++ back ∧
    (∀ item ∈ back, item.import? = none) ∧
    ((∃ front item d, inFront items = front ++ [item] ∧ item.import? = some d) ∨
      inFront items = items.takeWhile Item.inPrologue ∧ ∀ item ∈ items, item.import? = none) := by
  unfold inFront
  split
  · next nothing =>
    have none : ∀ item ∈ items, item.import? = none := by
      simpa using List.rdropWhile_eq_nil_iff.mp nothing
    exact ⟨_, List.takeWhile_append_dropWhile.symm,
      fun item there => none item ((List.dropWhile_sublist _).mem there), .inr ⟨rfl, none⟩⟩
  · next something =>
    refine ⟨_, (List.rdropWhile_append_rtakeWhile ..).symm, fun item there => ?_, .inl ?_⟩
    · simpa using List.mem_rtakeWhile_imp there
    · have last := List.rdropWhile_last_not _ _ something
      rw [Option.isNone_iff_eq_none, ← ne_eq, Option.ne_none_iff_exists'] at last
      obtain ⟨d, imports⟩ := last
      exact ⟨_, _, d, (List.dropLast_append_getLast something).symm, imports⟩

theorem takeWhile_append_cons_neg {α : Type} {p : α → Bool} {a : α} (h : p a = false)
    (front back : List α) : (front ++ a :: back).takeWhile p = front.takeWhile p := by
  induction front with
  | nil => rw [List.nil_append, List.takeWhile_cons, h, List.takeWhile_nil, if_neg (by simp)]
  | cons b front ih => rw [List.cons_append, List.takeWhile_cons, ih, List.takeWhile_cons]

theorem inPrologue_of_import {item : Item} {d : Import} (h : item.import? = some d) :
    item.inPrologue = false := by
  obtain ⟨statement, span⟩ := item
  cases statement with
  | importing d => rfl
  | _ => cases h

/-- The prologue stands in front of an added import. -/
theorem takeWhile_inFront (items : List Item) :
    items.takeWhile Item.inPrologue = (inFront items).takeWhile Item.inPrologue := by
  obtain ⟨back, split, -, ⟨front, item, d, ends, imports⟩ | ⟨same, -⟩⟩ := inFront_spec items
  · have stops := takeWhile_append_cons_neg (inPrologue_of_import imports) front
    conv => lhs; rw [split]
    rw [ends, List.append_assoc, List.singleton_append, stops, stops]
  · rw [same]
    exact List.takeWhile_idem.symm

/-- A module is read in two parts, cut where an import is added. -/
theorem exists_cut {l : Language} {text : List Char} {items : List Item}
    (h : items? l text = some items) : ∃ before after others, text = before ++ after ∧
      firstItems? l (before ++ after) (inFront items).length =
        some (inFront items, ⟨byteSize before, after⟩) ∧
      itemsFrom (Scope.of l after) (after.length + 1) (.start after) = some others ∧
      items = inFront items ++ others.map (Item.later (byteSize before)) := by
  obtain ⟨back, split, -⟩ := inFront_spec items
  have noBang : inFront items = [] → hashBangItem? text = none := by
    intro empty
    refine hashBangItem?_of_items h fun item there bang => ?_
    obtain ⟨rest, rfl⟩ := List.head?_eq_some_iff.mp there
    have prologue := takeWhile_inFront (item :: rest)
    rw [empty] at prologue
    simp [Item.inPrologue, bang] at prologue
  conv at h => rhs; rw [split]
  obtain ⟨d, first, m, enough, rest⟩ := (items?_append noBang).mp h
  obtain ⟨⟨before, whole, offset⟩, -⟩ := firstItems?_closes first
  obtain ⟨offset', after⟩ := d
  simp only [Cursor.start, Nat.zero_add] at whole offset
  subst whole offset
  rw [itemsFrom_suffix _ _ enough] at rest
  obtain ⟨others, read, rfl⟩ := Option.map_eq_some_iff.mp rest
  exact ⟨before, after, others, rfl, first, read, split⟩

/-! ## What statements mean -/

/-- A default export apart from where it stands, and the text it is written with. -/
def DefaultExport.inText (s : List Char) (d : DefaultExport) : DefaultExport × List Char :=
  ({ d with span := ⟨0, 0⟩ }, slice s d.span)

/-- What a statement means, its default export included. -/
def Item.meaning (s : List Char) (item : Item) : Content × Option (DefaultExport × List Char) :=
  (item.content s, item.defaultExport?.map (DefaultExport.inText s))

theorem defaultExport_meaning (items : List Item) (s : List Char) :
    (Outline.ofItems items).defaultExport.map (DefaultExport.inText s) =
      (items.map (Item.meaning s)).findSome? (·.2) := by
  simp [Outline.ofItems, Item.meaning, List.findSome?_map, Function.comp_def, List.map_findSome?]

/-- A statement means the same wherever it stands. -/
theorem Item.meaning_later (s t : List Char) (item : Item) :
    (item.later (byteSize s)).meaning (s ++ t) = item.meaning t := by
  refine Prod.ext (item.content_later s t) ?_
  obtain ⟨statement, span⟩ := item
  cases statement with
  | exportDefault value =>
    cases value with
    | declaration name => cases name <;> simp [meaning, defaultExport?, later, Statement.later,
        DefaultExport.inText, slice_later]
    | _ => simp [meaning, defaultExport?, later, Statement.later, DefaultExport.inText, slice_later]
  | exportNames specifiers reexport =>
    cases reexport <;> simp [meaning, defaultExport?, later, Statement.later, DefaultExport.inText,
      Function.comp_def, slice_later]
  | _ => rfl

/-- A statement means the same whatever stands behind it. -/
theorem Item.Inside.meaning_eq {s rest : List Char} {n : Nat} {item : Item}
    (inside : item.Inside (.start (s ++ rest)) ⟨n, rest⟩) (t : List Char) :
    item.meaning (s ++ rest) = item.meaning (s ++ t) := by
  refine Prod.ext (inside.content_eq t) ?_
  have here : slice (s ++ rest) item.span = slice (s ++ t) item.span :=
    (of_between inside.span).slice_append _ t
  refine Option.map_congr fun d there => ?_
  rw [DefaultExport.inText, DefaultExport.inText, defaultExport?_span there, here]

/-- The imports of a module stand behind its prologue. -/
theorem prologueEnd_le_start {l : Language} {text : List Char} {items : List Item}
    (h : items? l text = some items) : ∀ d ∈ (Outline.ofItems items).imports,
      (Outline.ofItems items).prologueEnd ≤ d.span.start := by
  intro d there
  obtain ⟨item, member, imports⟩ := List.mem_filterMap.mp there
  have split := List.takeWhile_append_dropWhile (p := Item.inPrologue) (l := items)
  have behind : item ∈ items.dropWhile Item.inPrologue := by
    rw [← split, List.mem_append] at member
    refine member.resolve_left fun inPrologue => ?_
    have other := inPrologue_of_import imports
    rw [List.mem_takeWhile_imp inPrologue] at other
    cases other
  rw [import?_span imports]
  simp only [Outline.ofItems]
  cases last : (items.takeWhile Item.inPrologue).getLast? with
  | none => exact Nat.zero_le _
  | some before =>
    have order := (items?_behind h).pairwise.2
    rw [← split, List.map_append, List.pairwise_append] at order
    exact order.2.2 _ (List.mem_map_of_mem (List.mem_of_getLast? last)) _
      (List.mem_map_of_mem behind)

end Script

namespace SourceFile

/-- Whether a file holds what another one held, with an import behind the others, and still starts
with the same prologue. -/
structure Gains (f : SourceFile) (o : Outline) (d : Import) (g : SourceFile) (o' : Outline) :
    Prop where
  imports : o'.imports.map (·.inText g.text.toList) =
    o.imports.map (·.inText f.text.toList) ++ [(d, d.render.toList)]
  declarations : o'.declarations.map (·.inText g.text.toList) =
    o.declarations.map (·.inText f.text.toList)
  namedExports : o'.namedExports = o.namedExports
  defaultExport : o'.defaultExport.map (·.inText g.text.toList) =
    o.defaultExport.map (·.inText f.text.toList)
  prologue : ∃ head, byteSize head = o.prologueEnd ∧ head <+: f.text.toList ∧
    head <+: g.text.toList
  stays : o.prologueEnd ≤ o'.prologueEnd
  behind : ∀ e ∈ o'.imports, o'.prologueEnd ≤ e.span.start

section

variable {f g : SourceFile} {l : Language} {items items' front others : List Item} {d : Import}
  {before lead trail after : List Char}

/-- What the statements mean when an import is put behind those in front of it. -/
theorem meaning_inserted (text : f.text.toList = before ++ after)
    (text' : g.text.toList = before ++ (lead ++ (d.render.toList ++ (trail ++ after))))
    (split : items = inFront items ++ others.map (Item.later (byteSize before)))
    (first : firstItems? l (before ++ after) (inFront items).length =
      some (inFront items, ⟨byteSize before, after⟩)) (unplaced : d.span = ⟨0, 0⟩)
    (split' : items' = front ++ .startingAt (byteSize (before ++ lead)) d.render.toList
      (.importing d) :: others.map
        (Item.later (byteSize (before ++ lead ++ d.render.toList ++ trail))))
    (same : front.map (Item.meaning g.text.toList) =
      (inFront items).map (Item.meaning g.text.toList)) :
    ∃ fronts backs, items.map (Item.meaning f.text.toList) = fronts ++ backs ∧
      items'.map (Item.meaning g.text.toList) =
        fronts ++ (⟨some (d, d.render.toList), [], []⟩, none) :: backs ∧
      ∀ m ∈ backs, m.1.imported = none := by
  refine ⟨(inFront items).map (Item.meaning f.text.toList), others.map (Item.meaning after),
    ?_, ?_, ?_⟩
  · conv => lhs; rw [split]
    rw [List.map_append, List.map_map, text]
    simp only [Function.comp_def, Item.meaning_later]
  · have inside : (inFront items).map (Item.meaning g.text.toList) =
        (inFront items).map (Item.meaning f.text.toList) := by
      refine List.map_congr_left fun item there => ?_
      rw [text, text']
      exact (firstItems?_inside first item there).meaning_eq _ |>.symm
    have cut : g.text.toList = before ++ lead ++ d.render.toList ++ (trail ++ after) := by
      rw [text']
      simp only [List.append_assoc]
    have new : Item.meaning g.text.toList (.startingAt (byteSize (before ++ lead))
        d.render.toList (.importing d)) = (⟨some (d, d.render.toList), [], []⟩, none) := by
      have written := slice_append (before ++ lead) d.render.toList (trail ++ after)
      rw [← cut, byteSize_append] at written
      simp [Item.meaning, Item.content, Item.startingAt, Item.import?, Item.declarations,
        Item.namedExports, Item.defaultExport?, Import.inText, written, ← unplaced]
    have moved : (others.map (Item.later (byteSize (before ++ lead ++ d.render.toList ++
        trail)))).map (Item.meaning g.text.toList) = others.map (Item.meaning after) := by
      rw [List.map_map, cut, ← List.append_assoc]
      simp only [Function.comp_def, Item.meaning_later]
    rw [split', List.map_append, List.map_cons, same, inside, new, moved]
  · obtain ⟨back, split'', none, -⟩ := inFront_spec items
    obtain rfl := List.append_cancel_left (split.symm.trans split'')
    rintro m there
    obtain ⟨item, listed, rfl⟩ := List.mem_map.mp there
    rw [← Item.meaning_later before after]
    simp [Item.meaning, Item.content, none _ (List.mem_map_of_mem listed)]

/-- The prologue lies in the text in front of an added import. -/
theorem exists_prologue (first : firstItems? l (before ++ after) (inFront items).length =
    some (inFront items, ⟨byteSize before, after⟩)) : ∃ head rest, before = head ++ rest ∧
      byteSize head = (Outline.ofItems items).prologueEnd := by
  simp only [Outline.ofItems, takeWhile_inFront items]
  cases last : ((inFront items).takeWhile Item.inPrologue).getLast? with
  | none => exact ⟨[], before, rfl, rfl⟩
  | some item =>
    have there : item ∈ inFront items :=
      (List.takeWhile_sublist _).mem (List.mem_of_getLast? last)
    obtain ⟨front, piece, rest, cut, span⟩ := of_between (firstItems?_inside first item there).span
    refine ⟨front ++ piece, rest, cut, ?_⟩
    simp [span]

/-- A file that is read as the statements of another one, with an import behind the last one, holds
what the other one held. -/
theorem gains_of_items (hr' : g.items? = some items')
    (text : f.text.toList = before ++ after)
    (text' : g.text.toList = before ++ (lead ++ (d.render.toList ++ (trail ++ after))))
    (split : items = inFront items ++ others.map (Item.later (byteSize before)))
    (first : firstItems? l (before ++ after) (inFront items).length =
      some (inFront items, ⟨byteSize before, after⟩)) (unplaced : d.span = ⟨0, 0⟩)
    (split' : items' = front ++ .startingAt (byteSize (before ++ lead)) d.render.toList
      (.importing d) :: others.map
        (Item.later (byteSize (before ++ lead ++ d.render.toList ++ trail))))
    (same : front.map (Item.meaning g.text.toList) =
      (inFront items).map (Item.meaning g.text.toList))
    (stays : (Outline.ofItems (inFront items)).prologueEnd ≤ (Outline.ofItems front).prologueEnd) :
    Gains f (Outline.ofItems items) d g (Outline.ofItems items') := by
  obtain ⟨fronts, backs, meaning, meaning', noImports⟩ :=
    meaning_inserted text text' split first unplaced split' same
  have contents (items : List Item) (s : List Char) :
      items.map (Item.content s) = (items.map (Item.meaning s)).map (·.1) := by
    simp [Item.meaning, Function.comp_def]
  obtain ⟨l', -, read'⟩ := Option.bind_eq_some_iff.mp hr'
  obtain ⟨head, rest, cut, size⟩ := exists_prologue first
  refine ⟨?_, ?_, ?_, ?_, ⟨head, size, ?_, ?_⟩, ?_, prologueEnd_le_start read'⟩
  · have none : (backs.map (·.1)).filterMap (·.imported) = [] := by
      rw [List.filterMap_map]
      exact List.filterMap_eq_nil_iff.mpr noImports
    rw [imports_content, imports_content, contents, contents, meaning, meaning']
    simp [none]
  · rw [declarations_content, declarations_content, contents, contents, meaning, meaning']
    simp
  · rw [namedExports_content _ g.text.toList, namedExports_content _ f.text.toList, contents,
      contents, meaning, meaning']
    simp
  · rw [defaultExport_meaning, defaultExport_meaning, meaning, meaning']
    simp
  · exact ⟨rest ++ after, by rw [text, cut, List.append_assoc]⟩
  · exact ⟨_, by rw [text', cut, List.append_assoc]⟩
  · have whole : (Outline.ofItems items).prologueEnd =
        (Outline.ofItems (inFront items)).prologueEnd := by
      simp only [Outline.ofItems, takeWhile_inFront items]
    have whole' : (Outline.ofItems items').prologueEnd = (Outline.ofItems front).prologueEnd := by
      rw [split']
      simp only [Outline.ofItems]
      rw [takeWhile_append_cons_neg rfl]
    rw [whole, whole']
    exact stays

/-- An import is added on a line of its own behind the statements in front of it, or at the front
where there are none. -/
theorem addImport_text (hr : f.items? = some items) (text : f.text.toList = before ++ after)
    (first : firstItems? l (before ++ after) (inFront items).length =
      some (inFront items, ⟨byteSize before, after⟩)) (d : Import) :
    ∃ g, f.addImport d = .ok g ∧ g.path = f.path ∧
      (inFront items = [] → before = [] ∧
        g.text.toList = d.render.toList ++ (f.lineEnd.toList ++ after)) ∧
      (inFront items ≠ [] →
        g.text.toList = before ++ (f.lineEnd.toList ++ (d.render.toList ++ after))) := by
  obtain ⟨-, count, -, stops⟩ := firstItems?_closes first
  dsimp only at count stops
  have insert (piece : List Char) :
      splice f.text.toList ⟨byteSize before, byteSize before⟩ piece = before ++ piece ++ after := by
    rw [text]
    simpa using splice_append before [] after piece
  obtain ⟨back, split, none, ⟨front, item, last, ends, imports⟩ | ⟨same, nothing⟩⟩ :=
    inFront_spec items
  · have there : (Outline.ofItems items).imports.getLast? = some last := by
      have behind : back.filterMap Item.import? = [] := List.filterMap_eq_nil_iff.mpr none
      have all : (Outline.ofItems items).imports = front.filterMap Item.import? ++ [last] := by
        rw [Outline.ofItems, split, ends]
        simp [imports, behind]
      rw [all, List.getLast?_concat]
    have stop : last.span.stop = byteSize before := by
      rw [import?_span imports, stops, ends, List.getLast?_concat]
      rfl
    simp only [addImport, outline_of_read (read_of_items? hr), bind, Except.bind, there]
    refine ⟨_, rfl, rfl, fun empty => absurd (ends.symm.trans empty) (by simp), fun _ => ?_⟩
    rw [replaceSpan, String.toList_ofList, stop, insert, String.toList_append]
    simp only [List.append_assoc]
  · have there : (Outline.ofItems items).imports.getLast? = Option.none := by
      rw [Outline.ofItems, List.filterMap_eq_nil_iff.mpr nothing]
      rfl
    have stop : (Outline.ofItems items).prologueEnd = byteSize before := by
      rw [stops, same]
      rfl
    simp only [addImport, outline_of_read (read_of_items? hr), bind, Except.bind, there]
    rw [stop]
    by_cases empty : inFront items = []
    · have zero : before = [] := by
        rw [empty] at stops
        exact byteSize_eq_zero.mp stops
      subst zero
      refine ⟨_, if_pos rfl, rfl, fun _ => ⟨rfl, ?_⟩, absurd empty⟩
      rw [replaceSpan, String.toList_ofList]
      exact (insert _).trans (by simp)
    · have positive : byteSize before ≠ 0 := by
        intro zero
        rw [byteSize_eq_zero.mp zero, List.nil_append] at count
        exact empty (List.eq_nil_of_length_eq_zero (by omega))
      refine ⟨_, if_neg positive, rfl, fun none => absurd none empty, fun _ => ?_⟩
      rw [replaceSpan, String.toList_ofList, insert, String.toList_append]
      simp only [List.append_assoc]

end

/-! ## The addition -/

/-- What comes of an import that is added to a file. -/
structure Lands (l : Language) (f : SourceFile) (items : List Item) (d : Import)
    (g : SourceFile) : Prop where
  /-- Without the import and one line end, the file is what it was. -/
  line : ∃ before after, f.text.toList = before ++ after ∧
    (g.text.toList = before ++ (f.lineEnd ++ d.render).toList ++ after ∨
      g.text.toList = before ++ (d.render ++ f.lineEnd).toList ++ after)
  /-- The file holds what it held, and the import, if it still opens with the statements in front
  of the import. This is so if they are steady. -/
  gains : (∀ item ∈ inFront items, item.Steady l f.text.toList) ∨
      g.opening? (inFront items).length = some (inFront items) →
    ∃ o', g.read = .ok (some o') ∧ Gains f (Outline.ofItems items) d g o'
  /-- Otherwise the statements are not those from before and the import. -/
  exactly : (∃ start, g.items? = some (inFront items ++
      .startingAt start d.render.toList (.importing d) ::
        (items.drop (inFront items).length).map
          (Item.later (byteSize g.text.toList - byteSize f.text.toList)))) ↔
    g.opening? (inFront items).length = some (inFront items)

section

variable {f g : SourceFile} {l : Language} {items others : List Item} {d : Import}
  {before lead trail after : List Char}

theorem lineEnd_eq (f : SourceFile) :
    f.lineEnd.toList = ['\n'] ∨ f.lineEnd.toList = ['\r', '\n'] := by
  unfold lineEnd
  split
  · exact .inr rfl
  · exact .inl rfl

theorem gapState_lineEnd (f : SourceFile) : gapState .blank f.lineEnd.toList = some .blank := by
  rcases lineEnd_eq f with eol | eol <;> rw [eol] <;> rfl

theorem hashBangItem?_of_firstItem {text : List Char} {span : Span} {e : Cursor}
    (h : firstItems? l text 1 = some ([⟨.hashBang, span⟩], e)) :
    hashBangItem? text = some (⟨.hashBang, span⟩, e) := by
  unfold firstItems? at h
  split at h
  · obtain ⟨e', next, -⟩ := firstFrom_cons.mp h
    obtain ⟨statement, read, -, -, same⟩ := nextItem?_eq_some next
    cases same
    exact absurd rfl (statementHere_sits _ _ _ _ read).ne_hashBang
  · cases h
  · next bang stop n found size =>
    obtain rfl : 0 = n := Nat.succ.inj size
    cases h
    exact found

/-- The line end that comes with an added import: behind the import at the front of a file, or
else in front of it. -/
def OnOwnLine (front : List Item) (before lead trail : List Char) : Prop :=
  lead = [] ∧ front = [] ∧ before = [] ∧ gapState .blank trail = some .blank ∨
    (lead = ['\n'] ∨ lead = ['\r', '\n']) ∧ front ≠ [] ∧ trail = []

theorem OnOwnLine.leads {front : List Item} (h : OnOwnLine front before lead trail) :
    gapState .blank lead = some .blank := by
  obtain ⟨rfl, -⟩ | ⟨rfl | rfl, -⟩ := h <;> rfl

theorem OnOwnLine.trails {front : List Item} (h : OnOwnLine front before lead trail) :
    gapState .blank trail = some .blank := by
  obtain ⟨-, -, -, blank⟩ | ⟨-, -, rfl⟩ := h
  · exact blank
  · rfl

/-- Behind a line that names an interpreter, and steady statements, an import is read. -/
theorem items?_added (stands : Stands l d.render.toList (.importing d))
    (first : firstItems? l (before ++ after) (inFront items).length =
      some (inFront items, ⟨byteSize before, after⟩))
    (rest : itemsFrom (Scope.of l after) (after.length + 1) (.start after) = some others)
    (steady : ∀ item ∈ inFront items, item.Steady l (before ++ after))
    (lines : OnOwnLine (inFront items) before lead trail) :
    ∃ front, Script.items? l (before ++ (lead ++ (d.render.toList ++ (trail ++ after)))) =
        some (front ++ .startingAt (byteSize (before ++ lead)) d.render.toList (.importing d) ::
          others.map (Item.later (byteSize (before ++ lead ++ d.render.toList ++ trail)))) ∧
      (∀ s, front.map (Item.meaning s) = (inFront items).map (Item.meaning s)) ∧
      (Outline.ofItems (inFront items)).prologueEnd ≤ (Outline.ofItems front).prologueEnd := by
  by_cases split : (∃ span, inFront items = [⟨.hashBang, span⟩]) ∧ lead = ['\r', '\n']
  · -- The carriage return becomes part of the line that names the interpreter.
    obtain ⟨⟨span, one⟩, rfl⟩ := split
    obtain ⟨empty, -⟩ | ⟨-, -, rfl⟩ := lines
    · cases empty
    rw [one] at first ⊢
    have found := hashBangItem?_of_firstItem first
    let line : Item := ⟨.hashBang, ⟨span.start, byteSize (before ++ ['\r'])⟩⟩
    have first' : firstItems? l (before ++ ['\r'] ++ (['\n'] ++ (d.render.toList ++ ([] ++ after))))
        [line].length = some ([line],
          ⟨byteSize (before ++ ['\r']), ['\n'] ++ (d.render.toList ++ ([] ++ after))⟩) := by
      have feed : ∀ c ∈ (['\n'] ++ (d.render.toList ++ ([] ++ after))).head?, c = '\n' := by
        rintro c ⟨⟩
        rfl
      have again := hashBangItem?_goesOn found (by decide : '\n' ∉ ['\r']) feed
      rw [← List.append_assoc] at again
      simp only [firstItems?, again]
      rfl
    have read := items?_inserted stands (rfl : gapState .blank ['\n'] = _)
      (rfl : gapState .blank [] = _) first' rest
    have joined : before ++ ['\r'] ++ ['\n'] = before ++ ['\r', '\n'] := by
      rw [List.append_assoc]
      rfl
    rw [joined, List.append_assoc before] at read
    refine ⟨_, read, fun _ => rfl, ?_⟩
    have stop : span.stop = byteSize before := (hashBangItem?_closes found).2.2.2.1.symm
    show span.stop ≤ byteSize (before ++ ['\r'])
    rw [stop, byteSize_append]
    exact Nat.le_add_right _ _
  · refine ⟨inFront items, ?_, fun _ => rfl, Nat.le_refl _⟩
    refine items?_inserted stands lines.leads lines.trails
      (firstItems?_steady first steady ?_ ?_) rest
    · intro empty
      obtain ⟨rfl, -, rfl, -⟩ | ⟨-, some, -⟩ := lines
      · exact hashBangItem?_of_stands stands (rfl : gapState .blank [] = _) _
      · exact absurd empty some
    · intro span one
      obtain ⟨-, none, -⟩ | ⟨rfl | rfl, -⟩ := lines
      · cases one.symm.trans none
      · rintro c ⟨⟩
        rfl
      · exact absurd ⟨⟨span, one⟩, rfl⟩ split

/-- An added import and one line end are all that the file gains. -/
theorem addImport_onOwnLine (hr : f.items? = some items) (text : f.text.toList = before ++ after)
    (first : firstItems? l (before ++ after) (inFront items).length =
      some (inFront items, ⟨byteSize before, after⟩)) (d : Import) :
    ∃ g lead trail, f.addImport d = .ok g ∧ g.path = f.path ∧
      OnOwnLine (inFront items) before lead trail ∧
      g.text.toList = before ++ (lead ++ (d.render.toList ++ (trail ++ after))) ∧
      (lead ++ d.render.toList ++ trail = (f.lineEnd ++ d.render).toList ∨
        lead ++ d.render.toList ++ trail = (d.render ++ f.lineEnd).toList) := by
  obtain ⟨g, added, path, atFront, behind⟩ := addImport_text hr text first d
  by_cases empty : inFront items = []
  · obtain ⟨rfl, text'⟩ := atFront empty
    exact ⟨g, [], f.lineEnd.toList, added, path, .inl ⟨rfl, empty, rfl, gapState_lineEnd f⟩, text',
      .inr (by simp)⟩
  · exact ⟨g, f.lineEnd.toList, [], added, path, .inr ⟨lineEnd_eq f, empty, rfl⟩,
      by simpa using behind empty, .inl (by simp)⟩

/-- The statements behind an added import are those from before, further on by what the file has
gained. -/
theorem later_of_added (text : f.text.toList = before ++ after)
    (text' : g.text.toList = before ++ (lead ++ (d.render.toList ++ (trail ++ after))))
    (split : items = inFront items ++ others.map (Item.later (byteSize before))) :
    (items.drop (inFront items).length).map
        (Item.later (byteSize g.text.toList - byteSize f.text.toList)) =
      others.map (Item.later (byteSize (before ++ lead ++ d.render.toList ++ trail))) := by
  have further : byteSize before + (byteSize g.text.toList - byteSize f.text.toList) =
      byteSize (before ++ lead ++ d.render.toList ++ trail) := by
    rw [text, text']
    simp only [byteSize_append]
    omega
  have dropped := congrArg (List.drop (inFront items).length) split
  rw [List.drop_left] at dropped
  rw [dropped, List.map_map, ← further]
  simp only [Function.comp_def, Item.later_later]

/-- An import that can be written is put behind the imports of a file, or else behind its prologue
or at its front. -/
theorem addImport_lands (hr : f.items? = some items) (language : Language.ofPath? f.path = some l)
    (writable : Writable l d) (unplaced : d.span = ⟨0, 0⟩) :
    ∃ g, f.addImport d = .ok g ∧ Lands l f items d g := by
  have read : Script.items? l f.text.toList = some items := by
    rw [SourceFile.items?, language] at hr
    exact hr
  obtain ⟨before, after, others, text, first, rest, split⟩ := exists_cut read
  obtain ⟨g, lead, trail, added, path, lines, text', line⟩ := addImport_onOwnLine hr text first d
  have stands : Stands l d.render.toList (.importing d) := by
    have same : Script.unplaced d = d := by
      rw [Script.unplaced, ← unplaced]
    exact same ▸ writable.stands
  have items_eq : g.items? = Script.items? l g.text.toList := by
    rw [SourceFile.items?, path, language]
    rfl
  have opens : g.opening? (inFront items).length = some (inFront items) ↔
      ∃ e, firstItems? l g.text.toList (inFront items).length = some (inFront items, e) := by
    rw [opening?, path, language]
    simp
  have inserted (opening : g.opening? (inFront items).length = some (inFront items)) :
      g.items? = some (inFront items ++
        .startingAt (byteSize (before ++ lead)) d.render.toList (.importing d) ::
          others.map (Item.later (byteSize (before ++ lead ++ d.render.toList ++ trail)))) := by
    obtain ⟨e, first'⟩ := opens.mp opening
    rw [text'] at first'
    rw [items_eq, text']
    exact items?_inserted_of_first stands lines.leads lines.trails first rest first'
  refine ⟨g, added, ⟨before, after, text, ?_⟩, ?_, ?_⟩
  · rw [text']
    rcases line with line | line
    · exact .inl (by rw [← line]; simp)
    · exact .inr (by rw [← line]; simp)
  · rintro (steady | opening)
    · rw [text] at steady
      obtain ⟨front, read', same, stays⟩ := items?_added stands first rest steady lines
      rw [← text', ← items_eq] at read'
      exact ⟨_, read_of_items? read',
        gains_of_items read' text text' split first unplaced rfl (same _) stays⟩
    · have read' := inserted opening
      exact ⟨_, read_of_items? read',
        gains_of_items read' text text' split first unplaced rfl rfl (Nat.le_refl _)⟩
  · rw [later_of_added text text' split]
    constructor
    · rintro ⟨start, read'⟩
      rw [items_eq] at read'
      exact opens.mpr (exists_first_of_items read' (ne_hashBang_of_import rfl))
    · exact fun opening => ⟨_, inserted opening⟩

end

end SourceFile

/-- A page for the browser, with a directive and an import. -/
def clientPage : SourceFile where
  path := "/proj/src/page.tsx"
  text := "\"use client\";\nimport \x7b sum \x7d from \"./sum\";\nexport const total = sum();\n"
  saved := ""
  root := ⟨"@/", "/proj"⟩

/-- The import of the page. -/
def sumImport : Import :=
  ⟨"./sum", none, none, [⟨"sum", none, false⟩], false, "\"", true, none, ⟨14, 42⟩⟩

/-- The statements of the page. -/
def clientItems : List Item := [
  ⟨.directive, ⟨0, 13⟩⟩,
  ⟨.importing { sumImport with span := ⟨0, 0⟩ }, ⟨14, 42⟩⟩,
  ⟨.exportDeclaration ⟨.blockVariable, ["total"], ⟨50, 70⟩⟩, ⟨43, 70⟩⟩]

/-- A default export that goes on behind a comment with a carriage return, and an import on the
line where it ends. -/
def operandModule : SourceFile where
  path := "/proj/src/page.js"
  text := "export default b\n// x\r + c; import d from \"d\";\n+ 1\n"
  saved := ""
  root := ⟨"@/", "/proj"⟩

/-- The import of the module. -/
def operandImport : Import :=
  ⟨"d", some "d", none, [], false, "\"", true, none, ⟨28, 46⟩⟩

def operandOutline : Outline where
  imports := [operandImport]
  defaultExport := some ⟨.expression, none, ⟨0, 27⟩⟩

/-- What the module holds with one more import. -/
def operandOutline' : Outline where
  imports := [operandImport,
    ⟨"e", none, none, [⟨"e", none, false⟩], false, "\"", true, none, ⟨47, 69⟩⟩]
  defaultExport := some ⟨.identifier, some "b", ⟨0, 16⟩⟩

/-- The module with one more import. -/
def operandModule' : SourceFile := { operandModule with
  text :=
    "export default b\n// x\r + c; import d from \"d\";\nimport \x7b e \x7d from \"e\";\n+ 1\n" }

end ModuleRepair
