import Mathlib.Data.List.Pairwise
import ModuleRepair.Proofs.Script.Opening
import ModuleRepair.Proofs.SourceFile.Margin

/-!
# Spans of a module

Every span that the outline of a module reports can be replaced (`outline_spans`): it starts and
stops between two characters of the text, and the imports and the default export stand apart. So the
bytes of an edited module can be read again, as the edited text.
-/
namespace ModuleRepair

open ModuleRepair.Text ModuleRepair.Script

/-! ## Bytes -/

section

variable {f : SourceFile} {s : List Char} {span : Span}

/-- The bytes with those in a span replaced. -/
def Text.spliceBytes (bytes : ByteArray) (span : Span) (replacement : ByteArray) : ByteArray :=
  bytes.extract 0 span.start ++ replacement ++ bytes.extract span.stop bytes.size

theorem toUTF8_toList (t : String) : t.toUTF8 = t.toList.utf8Encode := by
  conv => lhs; rw [← String.ofList_toList (s := t)]
  exact String.toByteArray_ofList

theorem size_utf8Encode (s : List Char) : s.utf8Encode.size = byteSize s := by
  rw [List.utf8Encode, List.size_toByteArray, ← length_bytesOf, bytesOf]

theorem utf8ByteSize_toList (t : String) : t.utf8ByteSize = byteSize t.toList := by
  rw [← size_utf8Encode, ← toUTF8_toList]
  rfl

/-- Between characters, bytes are replaced as characters are. -/
theorem Text.Span.Of.spliceBytes_eq (h : span.Of s) (r : List Char) :
    spliceBytes s.utf8Encode span r.utf8Encode = (splice s span r).utf8Encode := by
  obtain ⟨a, b, c, rfl, rfl⟩ := h
  have front : (a ++ b ++ c).utf8Encode.extract 0 (byteSize a) = a.utf8Encode := by
    rw [List.append_assoc, List.utf8Encode_append]
    exact ByteArray.extract_append_eq_left (size_utf8Encode a).symm
  have back : (a ++ b ++ c).utf8Encode.extract (byteSize a + byteSize b)
      (a ++ b ++ c).utf8Encode.size = c.utf8Encode := by
    rw [List.utf8Encode_append]
    refine ByteArray.extract_append_eq_right ?_ ByteArray.size_append
    rw [size_utf8Encode, byteSize_append]
  rw [splice_append, spliceBytes, front, back, List.utf8Encode_append, List.utf8Encode_append]

/-- Between characters, the bytes of an edited file can be read, as its text. -/
theorem decode_spliceBytes (h : span.Of f.text.toList) (r : String) :
    decode (spliceBytes f.text.toUTF8 span r.toUTF8) = .ok (f.replaceSpan span r).text := by
  rw [toUTF8_toList, toUTF8_toList, h.spliceBytes_eq, ← decode_toUTF8, SourceFile.replaceSpan,
    toUTF8_toList, String.toList_ofList]

/-! ## Between characters -/

namespace Text.Span.Of

theorem ordered (h : span.Of s) : span.start ≤ span.stop ∧ span.stop ≤ byteSize s := by
  obtain ⟨before, piece, after, rfl, rfl⟩ := h
  simp only [byteSize_append]
  omega

theorem of_append {before after : List Char} (whole : s = before ++ after) :
    Span.Of s ⟨byteSize before, byteSize before⟩ :=
  ⟨before, [], after, by simpa using whole, rfl⟩

theorem at_start (h : span.Of s) : Span.Of s ⟨span.start, span.start⟩ := by
  obtain ⟨before, piece, after, rfl, rfl⟩ := h
  exact of_append (List.append_assoc ..)

theorem at_stop (h : span.Of s) : Span.Of s ⟨span.stop, span.stop⟩ := by
  obtain ⟨before, piece, after, rfl, rfl⟩ := h
  rw [← byteSize_append]
  exact of_append rfl

theorem wholeLines (h : span.Of s) : Span.Of s (SourceFile.wholeLines (bytesOf s) span) := by
  obtain ⟨before, piece, after, rfl, rfl⟩ := h
  obtain ⟨m, reach⟩ := SourceFile.wholeLines_margin before piece after
  rw [reach, m.stop_eq]
  exact ⟨m.kept, m.left ++ piece ++ m.right, m.rest, m.around piece, rfl⟩

theorem of_between {d : Cursor} (h : span.Between (.start s) d) : span.Of s := by
  obtain ⟨a, b, ⟨before, front, start⟩, ⟨piece, here, stop⟩, -, rfl⟩ := h
  refine ⟨before, piece, b.rest, ?_, ?_⟩
  · rw [List.append_assoc, ← here, ← front]
    rfl
  · rw [stop, start, Cursor.start, Nat.zero_add]

end Text.Span.Of

end

namespace Script

/-! ## Statements -/

section

variable {l : Language} {text : List Char} {items : List Item} {item : Item}

/-- A statement of a module lies in its text, with what it declares. -/
theorem items?_inside (h : items? l text = some items) (there : item ∈ items) :
    ∃ d, item.Inside (.start text) d := by
  obtain ⟨front, back, rfl⟩ := List.append_of_mem there
  rw [List.append_cons] at h
  obtain ⟨d, first, -⟩ := (items?_append (by simp)).mp h
  exact ⟨d, firstItems?_inside first item (by simp)⟩

/-- The statement that provides the default export. -/
theorem exists_defaultExport {e : DefaultExport}
    (h : (Outline.ofItems items).defaultExport = some e) :
    ∃ item ∈ items, item.defaultExport? = some e := by
  obtain ⟨front, item, back, rfl, here, -⟩ := List.findSome?_eq_some_iff.mp h
  exact ⟨item, by simp, here⟩

theorem declared?_of_declaration {d : Declaration} (h : d ∈ item.declarations) :
    ∃ x ∈ item.statement.declared?, d.span = x.span := by
  obtain ⟨statement, span⟩ := item
  cases statement with
  | exportDeclaration x =>
    obtain ⟨n, -, rfl⟩ := List.mem_map.mp h
    exact ⟨x, rfl, rfl⟩
  | declaration x =>
    obtain ⟨n, -, rfl⟩ := List.mem_map.mp h
    exact ⟨x, rfl, rfl⟩
  | _ => cases h

/-- Imports lie behind one another, and each takes a piece of the text. -/
theorem imports_increasing (h : items? l text = some items) :
    ((items.filterMap Item.import?).map (·.span)).Pairwise fun a b =>
      a.start < b.start ∧ a.stop ≤ b.start := by
  have ordered := ((items?_behind h).sublist (imports_sublist items)).pairwise.2
  refine ordered.imp_of_mem fun {a b} there _ behind => ⟨?_, behind⟩
  obtain ⟨d, found, rfl⟩ := List.mem_map.mp there
  obtain ⟨item, member, imported⟩ := List.mem_filterMap.mp found
  have filled := items?_filled h member (ne_hashBang_of_import imported)
  rw [import?_span imported] at behind ⊢
  omega

/-- Different statements stand apart. -/
theorem items?_apart {other : Item} (h : items? l text = some items) (here : item ∈ items)
    (there : other ∈ items) (distinct : item ≠ other) :
    item.span.stop ≤ other.span.start ∨ other.span.stop ≤ item.span.start := by
  have ordered := List.pairwise_map.mp (items?_behind h).pairwise.2
  have either : items.Pairwise fun a b =>
      a.span.stop ≤ b.span.start ∨ b.span.stop ≤ a.span.start := ordered.imp Or.inl
  have : Std.Symm fun a b : Item => a.span.stop ≤ b.span.start ∨ b.span.stop ≤ a.span.start :=
    ⟨fun _ _ => Or.symm⟩
  exact either.forall here there distinct

/-- No statement is both an import and a default export. -/
theorem import?_of_defaultExport {e : DefaultExport} (h : item.defaultExport? = some e) :
    item.import? = none := by
  obtain ⟨statement, span⟩ := item
  cases statement with
  | importing d => cases h
  | _ => rfl

/-- All spans that an outline reports. -/
def Outline.spans (o : Outline) : List Span :=
  o.imports.map (·.span) ++ o.defaultExport.toList.map (·.span) ++ o.declarations.map (·.span)

/-- All spans that an outline reports start and stop between characters. -/
theorem spans_of (h : items? l text = some items) :
    ∀ span ∈ (Outline.ofItems items).spans, span.Of text := by
  intro span there
  simp only [Outline.spans, List.mem_append, or_assoc] at there
  rcases there with there | there | there
  · obtain ⟨d, found, rfl⟩ := List.mem_map.mp there
    obtain ⟨item, member, imported⟩ := List.mem_filterMap.mp found
    obtain ⟨_, inside⟩ := items?_inside h member
    rw [import?_span imported]
    exact .of_between inside.span
  · obtain ⟨e, found, rfl⟩ := List.mem_map.mp there
    obtain ⟨item, member, provided⟩ := exists_defaultExport (Option.mem_toList.mp found)
    obtain ⟨_, inside⟩ := items?_inside h member
    rw [defaultExport?_span provided]
    exact .of_between inside.span
  · obtain ⟨d, found, rfl⟩ := List.mem_map.mp there
    obtain ⟨item, member, declared⟩ := List.mem_flatMap.mp found
    obtain ⟨x, here, span⟩ := declared?_of_declaration declared
    obtain ⟨_, inside⟩ := items?_inside h member
    rw [span]
    exact .of_between (inside.declared x here)

end

end Script

/-- The spans that the edits of a file replace: an import or its lines, a place behind one, the
front, a place behind the prologue, a place in front of a declaration, and the lines of the default
export. -/
inductive SourceFile.EditSpan (f : SourceFile) (o : Outline) : Span → Prop
  | importing {d : Import} (there : d ∈ o.imports) : EditSpan f o d.span
  | importLines {d : Import} (there : d ∈ o.imports) :
      EditSpan f o (wholeLines (bytesOf f.text.toList) d.span)
  | behind {d : Import} (there : d ∈ o.imports) : EditSpan f o ⟨d.span.stop, d.span.stop⟩
  | front : EditSpan f o ⟨0, 0⟩
  | prologue : EditSpan f o ⟨o.prologueEnd, o.prologueEnd⟩
  | declaration {d : Declaration} (there : d ∈ o.declarations) :
      EditSpan f o ⟨d.span.start, d.span.start⟩
  | defaultLines {e : DefaultExport} (there : e ∈ o.defaultExport) :
      EditSpan f o (wholeLines (bytesOf f.text.toList) e.span)

/-- Whether the spans that an outline of a file reports can be replaced: they start and stop between
characters, the imports lie behind one another and apart from the default export, and an edit at any
of the spans leaves bytes that can be read. -/
structure SourceFile.Spliceable (f : SourceFile) (o : Outline) : Prop where
  increasing : (o.imports.map (·.span)).Pairwise fun a b => a.start < b.start ∧ a.stop ≤ b.start
  apart : ∀ d ∈ o.imports, ∀ e ∈ o.defaultExport,
    d.span.stop ≤ e.span.start ∨ e.span.stop ≤ d.span.start
  between : ∀ span ∈ o.spans, span.Of f.text.toList
  ordered : ∀ span ∈ o.spans, span.start ≤ span.stop ∧ span.stop ≤ f.text.utf8ByteSize
  prologue : ∃ before after, f.text.toList = before ++ after ∧ byteSize before = o.prologueEnd
  readable : ∀ span, f.EditSpan o span → ∀ r : String,
    decode (spliceBytes f.text.toUTF8 span r.toUTF8) = .ok (f.replaceSpan span r).text

theorem editSpan_of {f : SourceFile} {o : Outline} {span : Span}
    (between : ∀ span ∈ o.spans, span.Of f.text.toList)
    (prologue : Span.Of f.text.toList ⟨o.prologueEnd, o.prologueEnd⟩)
    (h : f.EditSpan o span) : span.Of f.text.toList := by
  have importing {d : Import} (there : d ∈ o.imports) : d.span.Of f.text.toList :=
    between d.span (List.mem_append_left _ (List.mem_append_left _ (List.mem_map_of_mem there)))
  cases h with
  | importing there => exact importing there
  | importLines there => exact (importing there).wholeLines
  | behind there => exact (importing there).at_stop
  | front => exact .of_append (List.nil_append _).symm
  | prologue => exact prologue
  | declaration there =>
    exact (between _ (List.mem_append_right _ (List.mem_map_of_mem there))).at_start
  | defaultLines there =>
    refine (between _ (List.mem_append_left _ (List.mem_append_right _ ?_))).wholeLines
    exact List.mem_map_of_mem (Option.mem_toList.mpr there)

/-- The spans of a module that is not broken can be replaced. Replacing a piece of a text leaves the
text around it, in its bytes as well. -/
theorem outline_spans {f : SourceFile} {l : Language} {o : Outline}
    (h : outline? l f.text = some o) : f.Spliceable o ∧
      ∀ (a b c : List Char) (r : String), f.text.toList = a ++ b ++ c →
        (f.replaceSpan ⟨byteSize a, byteSize (a ++ b)⟩ r).text.toList = a ++ r.toList ++ c ∧
          decode (spliceBytes f.text.toUTF8 ⟨byteSize a, byteSize (a ++ b)⟩ r.toUTF8) =
            .ok (f.replaceSpan ⟨byteSize a, byteSize (a ++ b)⟩ r).text := by
  obtain ⟨before, after, front, stop⟩ := outline?_prologue h
  obtain ⟨items, read, rfl⟩ := Option.map_eq_some_iff.mp h
  have between := spans_of read
  refine ⟨?_, fun a b c r whole => ?_⟩
  · exact {
      increasing := imports_increasing read
      apart := by
        intro d found e provided
        obtain ⟨item, here, imported⟩ := List.mem_filterMap.mp found
        obtain ⟨other, there, provides⟩ := exists_defaultExport provided
        rw [import?_span imported, defaultExport?_span provides]
        refine items?_apart read here there ?_
        rintro rfl
        rw [import?_of_defaultExport provides] at imported
        cases imported
      between := between
      ordered := by
        intro span there
        rw [utf8ByteSize_toList]
        exact (between span there).ordered
      prologue := ⟨before, after, front, stop⟩
      readable := by
        intro span edit r
        exact decode_spliceBytes (editSpan_of between (stop ▸ .of_append front) edit) r }
  · have piece : Span.Of f.text.toList ⟨byteSize a, byteSize (a ++ b)⟩ :=
      ⟨a, b, c, whole, by rw [byteSize_append]⟩
    refine ⟨?_, decode_spliceBytes piece r⟩
    rw [SourceFile.replaceSpan, String.toList_ofList, whole, byteSize_append, splice_append]

/-- A byte-order mark and a prologue. -/
def cafeFront : List Char :=
  byteOrderMark :: "\"use client\";".toList

/-- An import with letters beyond ASCII. -/
def cafeImport : List Char :=
  "\nimport café from \"./café\";".toList

def cafeRest : List Char :=
  "\nexport default café;\nimport type \x7b Menu \x7d from \"./menu\"\n".toList

def cafeModule : SourceFile where
  path := "/proj/src/app/page.tsx"
  text := String.ofList (cafeFront ++ cafeImport ++ cafeRest)
  saved := ""
  root := ⟨"@/", "/proj"⟩

def cafeOutline : Outline where
  imports := [
    ⟨"./café", some "café", none, [], false, "\"", true, none, ⟨17, 45⟩⟩,
    ⟨"./menu", none, none, [⟨"Menu", none, false⟩], true, "\"", false, none, ⟨68, 102⟩⟩]
  defaultExport := some ⟨.identifier, some "café", ⟨46, 67⟩⟩
  prologueEnd := 16

theorem cafeModule_spans : outline? .tsx cafeModule.text = some cafeOutline ∧
    cafeModule.Spliceable cafeOutline ∧
    (cafeModule.replaceSpan ⟨16, 45⟩ "").text.toList = cafeFront ++ "".toList ++ cafeRest := by
  have read : outline? .tsx cafeModule.text = some cafeOutline := by decide +kernel
  obtain ⟨spliceable, exactly⟩ := outline_spans read
  exact ⟨read, spliceable, (exactly cafeFront cafeImport cafeRest "" String.toList_ofList).1⟩

end ModuleRepair
