import ModuleRepair.Proofs.Script.Opening
import ModuleRepair.Proofs.SourceFile.Layout
import ModuleRepair.Proofs.SourceFile.Margin

/-!
# Around a statement

A module is read around each of its statements (`Around`). Without the piece that the statement
takes and what goes with it, the statements behind are read as before if those in front are
(`Around.items?_iff`), and all of them say what they said (`Around.content_eq`).
-/
namespace ModuleRepair

open ModuleRepair.Text ModuleRepair.Script

/-- An import apart from where it stands, and the text it is written with. -/
def Import.inText (s : List Char) (d : Import) : Import × List Char :=
  ({ d with span := ⟨0, 0⟩ }, slice s d.span)

namespace Script

variable {l : Language} {s text gap piece after : List Char} {front back : List Item} {gone : Item}

/-! ## Around a statement -/

/-- How a module is read around one of its statements: the others in front end where `text` does,
and a gap lies between them and the piece that the statement takes. -/
structure Around (l : Language) (front : List Item) (gone : Item) (back : List Item)
    (text gap piece after : List Char) : Prop where
  closed : Closed ['\n'] false text
  between : gapState .blank gap = some .blank
  first : firstItems? l (text ++ gap ++ piece ++ after) front.length =
    some (front, ⟨byteSize text, gap ++ piece ++ after⟩)
  span : gone.span = ⟨byteSize (text ++ gap), byteSize (text ++ gap) + byteSize piece⟩
  rest : ∃ m, after.length < m ∧ itemsFrom (Scope.of l (text ++ gap ++ piece ++ after)) m
    ⟨byteSize (text ++ gap ++ piece), after⟩ = some back

/-- Every statement of a module stands somewhere in its text. -/
theorem exists_around (h : items? l s = some (front ++ gone :: back))
    (plain : gone.statement ≠ .hashBang) : ∃ text gap piece after,
      s = text ++ gap ++ piece ++ after ∧ Around l front gone back text gap piece after := by
  obtain ⟨c, m, stop, first, count, next, behind⟩ := exists_nextItem h plain
  obtain ⟨statement, read, progress, there, rfl⟩ := nextItem?_eq_some next
  obtain ⟨⟨text, whole, offset⟩, -, ⟨taken, whole', closed⟩, -⟩ := firstItems?_closes first
  obtain rfl : text = taken := List.append_cancel_right (whole.symm.trans whole')
  obtain ⟨gap, behindText, start, between⟩ := Cursor.exists_gap there
  obtain ⟨piece, behindGap, stops⟩ : c.skipGap.Reaches stop := statementHere_forward _ _ _ _ read
  simp only [Cursor.start, Nat.zero_add] at whole offset
  have place : c = ⟨byteSize text, gap ++ piece ++ stop.rest⟩ := by
    rw [List.append_assoc, ← behindGap, ← behindText, ← offset]
  have placed : stop = ⟨byteSize (text ++ gap ++ piece), stop.rest⟩ := by
    rw [byteSize_append, byteSize_append, ← offset, ← start, ← stops]
  have around : s = text ++ gap ++ piece ++ stop.rest := by
    rw [whole, behindText, behindGap]
    simp only [List.append_assoc]
  refine ⟨text, gap, piece, stop.rest, around, closed, between, ?_, ?_, m, ?_, ?_⟩
  · rw [← around, ← place, first]
  · rw [stops, start, offset, byteSize_append]
  · have less := congrArg List.length behindText
    have through : c.skipGap.Reaches stop := statementHere_forward _ _ _ _ read
    have behind' := through.length_lt progress
    rw [List.length_append] at less
    omega
  · rw [← around, ← placed, behind]

/-- The statements of the text that is kept behind a removed piece. -/
theorem Around.exists_others (around : Around l front gone back text gap piece after)
    (m : SourceFile.Margin (text ++ gap) after) : ∃ others,
      itemsFrom (Scope.of l m.rest) (m.rest.length + 1) (.start m.rest) = some others ∧
      back = others.map (Item.later (byteSize (text ++ gap ++ piece ++ m.right))) := by
  obtain ⟨k, count, rest⟩ := around.rest
  have enough : m.rest.length < k := by
    have length := congrArg List.length m.after_eq
    rw [List.length_append] at length
    omega
  have start : Cursor.skipGap ⟨byteSize (text ++ gap ++ piece), after⟩ =
      Cursor.skipGap ⟨byteSize (text ++ gap ++ piece ++ m.right), m.rest⟩ := by
    rw [byteSize_append _ m.right, ← Cursor.skipGap_append m.gapLength_behind, ← m.after_eq]
  have whole : text ++ gap ++ piece ++ after = text ++ gap ++ piece ++ m.right ++ m.rest := by
    rw [List.append_assoc _ m.right, ← m.after_eq]
  rw [itemsFrom_congr start, whole, itemsFrom_suffix _ _ enough] at rest
  obtain ⟨others, read, same⟩ := Option.map_eq_some_iff.mp rest
  exact ⟨others, read, same.symm⟩

/-- Without a statement and what goes with it, the others behind it are read as before if those in
front of it are. -/
theorem Around.items?_iff (around : Around l front gone back text gap piece after)
    (m : SourceFile.Margin (text ++ gap) after) {others : List Item}
    (read : itemsFrom (Scope.of l m.rest) (m.rest.length + 1) (.start m.rest) = some others) :
    items? l (m.kept ++ m.rest) = some (front ++ others.map (Item.later (byteSize m.kept))) ↔
      ∃ d, firstItems? l (m.kept ++ m.rest) front.length = some (front, d) := by
  constructor
  · intro h
    have noBang : front = [] → hashBangItem? (m.kept ++ m.rest) = none := by
      rintro rfl
      refine hashBangItem?_of_items h fun item there => ?_
      rw [List.nil_append, List.head?_map] at there
      obtain ⟨other, first, rfl⟩ := Option.map_eq_some_iff.mp there
      exact Item.later_ne_hashBang (itemsFrom_head read other first)
    obtain ⟨d, first, -⟩ := (items?_append noBang).mp h
    exact ⟨d, first⟩
  · rintro ⟨d, first⟩
    obtain ⟨left, kept, gone⟩ := m.kept_of_closed around.closed
    have reached : firstItems? l (text ++ (gap ++ (piece ++ after))) front.length =
        some (front, ⟨byteSize text, gap ++ (piece ++ after)⟩) := by
      simpa only [List.append_assoc] using around.first
    -- The statements in front end where they did, so only the gap behind them has changed.
    have place : d = ⟨byteSize text, left ++ m.rest⟩ := by
      have again := first
      rw [kept, List.append_assoc] at again
      exact firstItems?_place reached again
    have gap_eq := m.gapLength_front kept (gone ▸ around.between)
    have next : d.skipGap = Cursor.skipGap ⟨byteSize m.kept, m.rest⟩ := by
      rw [place, Cursor.skipGap_append gap_eq, kept, byteSize_append]
    have noBang : front = [] → hashBangItem? (m.kept ++ m.rest) = none := by
      rintro rfl
      exact hashBangItem?_of_first first
    have enough : m.rest.length < d.rest.length + 1 := by
      rw [place, List.length_append]
      omega
    refine (items?_append noBang).mpr ⟨d, first, d.rest.length + 1, Nat.lt_succ_self _, ?_⟩
    rw [itemsFrom_congr next, itemsFrom_suffix _ _ enough, read]
    rfl

/-! ## Contents -/

/-- A declaration apart from where it stands, and the text it is written with. -/
def Declaration.inText (s : List Char) (d : Declaration) : Declaration × List Char :=
  ({ d with span := ⟨0, 0⟩ }, slice s d.span)

/-- What a statement says, apart from where it stands. -/
structure Content where
  imported : Option (Import × List Char)
  declared : List (Declaration × List Char)
  named : List String

def Item.content (s : List Char) (item : Item) : Content where
  imported := item.import?.map (Import.inText s)
  declared := item.declarations.map (Declaration.inText s)
  named := item.namedExports

theorem imports_content (items : List Item) (s : List Char) :
    (Outline.ofItems items).imports.map (Import.inText s) =
      (items.map (Item.content s)).filterMap (·.imported) := by
  simp [Outline.ofItems, Item.content, List.map_filterMap, List.filterMap_map, Function.comp_def]

theorem declarations_content (items : List Item) (s : List Char) :
    (Outline.ofItems items).declarations.map (Declaration.inText s) =
      (items.map (Item.content s)).flatMap (·.declared) := by
  simp [Outline.ofItems, Item.content, List.map_flatMap, List.flatMap_map]

theorem namedExports_content (items : List Item) (s : List Char) :
    (Outline.ofItems items).namedExports = (items.map (Item.content s)).flatMap (·.named) := by
  simp [Outline.ofItems, Item.content, List.flatMap_map]

/-- A statement says the same wherever it stands. -/
theorem Item.content_later (s t : List Char) (item : Item) :
    (item.later (byteSize s)).content (s ++ t) = item.content t := by
  obtain ⟨statement, span⟩ := item
  cases statement <;> simp [content, import?, declarations, namedExports, later, Statement.later,
    Declared.later, Import.inText, Declaration.inText, slice_later, Function.comp_def]

theorem of_between {rest : List Char} {n : Nat} {span : Span}
    (h : span.Between (.start (s ++ rest)) ⟨n, rest⟩) : span.Of s := by
  obtain ⟨a, b, ⟨before, front, start⟩, ⟨piece, here, stop⟩, ⟨behind, back, -⟩, rfl⟩ := h
  refine ⟨before, piece, behind, (List.append_left_inj rest).mp ?_, ?_⟩
  · have back : b.rest = behind ++ rest := back
    rw [List.append_assoc _ behind, ← back, List.append_assoc, ← here, ← front]
    rfl
  · rw [stop, start, Cursor.start, Nat.zero_add]

/-- A statement says the same whatever stands behind it. -/
theorem Item.Inside.content_eq {rest : List Char} {n : Nat} {item : Item}
    (inside : item.Inside (.start (s ++ rest)) ⟨n, rest⟩) (t : List Char) :
    item.content (s ++ rest) = item.content (s ++ t) := by
  have here : slice (s ++ rest) item.span = slice (s ++ t) item.span :=
    (of_between inside.span).slice_append _ t
  have declared {x : Declared} (there : x ∈ item.statement.declared?) :
      slice (s ++ rest) x.span = slice (s ++ t) x.span :=
    (of_between (inside.declared x there)).slice_append _ t
  obtain ⟨statement, span⟩ := item
  cases statement with
  | importing d => simp [content, import?, declarations, namedExports, Import.inText, here]
  | exportDeclaration x =>
    simp [content, import?, declarations, namedExports, Declaration.inText, declared rfl]
  | declaration x =>
    simp [content, import?, declarations, namedExports, Declaration.inText, declared rfl]
  | _ => rfl

theorem Item.later_later (m n : Nat) (item : Item) :
    (item.later m).later n = item.later (m + n) := by
  obtain ⟨statement, span⟩ := item
  cases statement <;>
    simp [later, Statement.later, Declared.later, Span.later, Nat.add_assoc]

/-- The others say what they said. -/
theorem Around.content_eq (around : Around l front gone back text gap piece after)
    (m : SourceFile.Margin (text ++ gap) after) {others : List Item}
    (behind : back = others.map (Item.later (byteSize (text ++ gap ++ piece ++ m.right)))) :
    (front ++ others.map (Item.later (byteSize m.kept))).map (Item.content (m.kept ++ m.rest)) =
      (front ++ back).map (Item.content (text ++ gap ++ piece ++ after)) := by
  obtain ⟨left, kept, -⟩ := m.kept_of_closed around.closed
  have inFront : front.map (Item.content (m.kept ++ m.rest)) =
      front.map (Item.content (text ++ gap ++ piece ++ after)) := by
    have cut : text ++ gap ++ piece ++ after = text ++ (gap ++ piece ++ after) := by
      simp only [List.append_assoc]
    have inside := firstItems?_inside around.first
    refine List.map_congr_left fun item there => ?_
    have here : item.Inside (.start (text ++ (gap ++ piece ++ after)))
        ⟨byteSize text, gap ++ piece ++ after⟩ := cut ▸ inside item there
    have same := here.content_eq (left ++ m.rest)
    rw [kept, List.append_assoc, cut, same]
  have moved : (others.map (Item.later (byteSize m.kept))).map (Item.content (m.kept ++ m.rest)) =
      others.map (Item.content m.rest) := by
    simp [List.map_map, Function.comp_def, Item.content_later]
  have whole : text ++ gap ++ piece ++ after = text ++ gap ++ piece ++ m.right ++ m.rest := by
    rw [List.append_assoc _ m.right, ← m.after_eq]
  rw [List.map_append, List.map_append, inFront, moved, behind, whole]
  simp only [List.map_map, Function.comp_def, Item.content_later]

end Script

end ModuleRepair
