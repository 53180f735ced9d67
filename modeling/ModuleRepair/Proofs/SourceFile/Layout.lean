import ModuleRepair.Proofs.Script.Forward
import ModuleRepair.Proofs.SourceFile.Reread
import ModuleRepair.Proofs.Text.Slice

/-!
# Imports and what stands between them

The text of a module is that of its imports with gaps around them (`Layout`). A module that is read
has exactly one layout (`exists_layout`, `Layout.Of.unique`), and replacing or adding an import
changes the layout in one place (`replaceImport_layout`, `addImport_layout`).
-/
namespace ModuleRepair

open ModuleRepair.Text ModuleRepair.Script

/-- A piece of text, and the gap in front of it. -/
structure Piece where
  gap : List Char
  text : List Char
  deriving DecidableEq

/-- The text of a module by its imports, with what stands behind the last one. -/
structure Layout where
  parts : List Piece
  last : List Char
  deriving DecidableEq

namespace Piece

/-- The text of parts, one behind the other. -/
def textOf (parts : List Piece) : List Char :=
  parts.flatMap fun part => part.gap ++ part.text

/-- Where the pieces of text stand when the first gap starts at an offset. -/
def spansFrom : Nat → List Piece → List Span
  | _, [] => []
  | n, part :: parts =>
    let start := n + byteSize part.gap
    let stop := start + byteSize part.text
    ⟨start, stop⟩ :: spansFrom stop parts

@[simp] theorem textOf_nil : textOf [] = [] := rfl

@[simp] theorem textOf_cons (part : Piece) (parts : List Piece) :
    textOf (part :: parts) = part.gap ++ part.text ++ textOf parts := rfl

@[simp] theorem textOf_append (parts parts' : List Piece) :
    textOf (parts ++ parts') = textOf parts ++ textOf parts' :=
  List.flatMap_append

@[simp] theorem length_spansFrom (n : Nat) (parts : List Piece) :
    (spansFrom n parts).length = parts.length := by
  induction parts generalizing n with
  | nil => rfl
  | cons part parts ih => simp [spansFrom, ih]

theorem spansFrom_append (n : Nat) (parts parts' : List Piece) :
    spansFrom n (parts ++ parts') =
      spansFrom n parts ++ spansFrom (n + byteSize (textOf parts)) parts' := by
  induction parts generalizing n with
  | nil => rfl
  | cons part parts ih => simp [spansFrom, ih, Nat.add_assoc]

theorem getElem?_spansFrom (n : Nat) (front back : List Piece) (part : Piece) :
    let start := n + byteSize (textOf front ++ part.gap)
    (spansFrom n (front ++ part :: back))[front.length]? =
      some ⟨start, start + byteSize part.text⟩ := by
  simp [spansFrom_append, spansFrom, Nat.add_assoc]

/-- The last piece ends where the text does. -/
theorem getLast?_spansFrom (n : Nat) {parts : List Piece} {span : Span}
    (h : (spansFrom n parts).getLast? = some span) : span.stop = n + byteSize (textOf parts) := by
  rcases List.eq_nil_or_concat parts with rfl | ⟨front, part, rfl⟩
  · cases h
  · rw [List.concat_eq_append] at h ⊢
    simp only [spansFrom_append, spansFrom, List.getLast?_concat, Option.some.injEq] at h
    simp [← h, Nat.add_assoc]

theorem parts_unique {parts parts' : List Piece} {last last' : List Char} {n : Nat}
    (text : textOf parts ++ last = textOf parts' ++ last')
    (spans : spansFrom n parts = spansFrom n parts') : parts = parts' ∧ last = last' := by
  induction parts generalizing parts' n with
  | nil =>
    cases parts' with
    | nil => exact ⟨rfl, text⟩
    | cons part' parts' => cases spans
  | cons part parts ih =>
    cases parts' with
    | nil => cases spans
    | cons part' parts' =>
      obtain ⟨gap, piece⟩ := part
      obtain ⟨gap', piece'⟩ := part'
      simp only [spansFrom, List.cons.injEq, Span.mk.injEq] at spans
      obtain ⟨⟨start, stop⟩, rest⟩ := spans
      simp only [textOf_cons, List.append_assoc] at text
      have gaps : byteSize gap = byteSize gap' := by omega
      have pieces : byteSize piece = byteSize piece' := by omega
      obtain ⟨rfl, behind⟩ := append_inj_byteSize text gaps
      obtain ⟨rfl, later⟩ := append_inj_byteSize behind pieces
      obtain ⟨rfl, rfl⟩ := ih later rest
      exact ⟨rfl, rfl⟩

/-- Spans that lie behind one another are those of the pieces between them. -/
theorem exists_of_behind {c : Cursor} {spans : List Span} (h : Behind c spans) :
    ∃ parts last, textOf parts ++ last = c.rest ∧ spansFrom c.offset parts = spans := by
  induction h with
  | nil c => exact ⟨[], c.rest, rfl, rfl⟩
  | cons before through _ ih =>
    obtain ⟨gap, rest, start⟩ := before
    obtain ⟨piece, rest', stop⟩ := through
    obtain ⟨parts, last, text, spans⟩ := ih
    refine ⟨⟨gap, piece⟩ :: parts, last, ?_, ?_⟩
    · rw [textOf_cons, rest, rest', ← text]
      simp only [List.append_assoc]
    · rw [spansFrom, ← spans, stop, start]

end Piece

namespace Layout

open Piece

def text (l : Layout) : List Char :=
  textOf l.parts ++ l.last

/-- Where the imports stand. -/
def spans (l : Layout) : List Span :=
  spansFrom 0 l.parts

/-- Whether a module that is read has this layout. -/
structure Of (l : Layout) (f : SourceFile) (o : Outline) : Prop where
  text_eq : l.text = f.text.toList
  spans_eq : l.spans = o.imports.map (·.span)

/-- Imports as they are written behind a gap, each on a line of its own. -/
def written (gap eol : List Char) (first : Import) (more : List Import) : List Piece :=
  ⟨gap, first.render.toList⟩ :: more.map fun d => ⟨eol, d.render.toList⟩

/-- The layout with an import replaced by others. The gap in front of it stays. -/
def replace (l : Layout) (i : Nat) (eol : List Char) (first : Import) (more : List Import) :
    Layout where
  parts := l.parts.take i ++
    (l.parts[i]?.map fun part => written part.gap eol first more).getD [] ++ l.parts.drop (i + 1)
  last := l.last

/-- The layout with an import added behind the others, or else behind the prologue, or else at the
front. -/
def add (l : Layout) (eol : List Char) (prologueEnd : Nat) (d : Import) : Layout :=
  if l.parts ≠ [] then ⟨l.parts ++ [⟨eol, d.render.toList⟩], l.last⟩
  else if prologueEnd = 0 then ⟨[⟨[], d.render.toList⟩], eol ++ l.last⟩
  else
    ⟨[⟨takeBytes prologueEnd l.last ++ eol, d.render.toList⟩], dropBytes prologueEnd l.last⟩

variable {l l' : Layout} {f : SourceFile} {o : Outline}

theorem add_behind (imports : l.parts ≠ []) (eol : List Char) (prologueEnd : Nat) (d : Import) :
    l.add eol prologueEnd d = ⟨l.parts ++ [⟨eol, d.render.toList⟩], l.last⟩ :=
  if_pos imports

theorem add_inFront (none : l.parts = []) (eol : List Char) (d : Import) :
    l.add eol 0 d = ⟨[⟨[], d.render.toList⟩], eol ++ l.last⟩ := by
  simp [add, none]

theorem add_behindPrologue {before after : List Char} (none : l.parts = [])
    (around : l.last = before ++ after) (prologue : byteSize before ≠ 0) (eol : List Char)
    (d : Import) :
    l.add eol (byteSize before) d = ⟨[⟨before ++ eol, d.render.toList⟩], after⟩ := by
  simp [add, none, prologue, around]

theorem Of.unique (h : l.Of f o) (h' : l'.Of f o) : l = l' := by
  obtain ⟨parts, last⟩ := parts_unique (h.text_eq.trans h'.text_eq.symm)
    (h.spans_eq.trans h'.spans_eq.symm)
  cases l
  cases l'
  simp only at parts last
  rw [parts, last]

theorem Of.length_eq (h : l.Of f o) : l.parts.length = o.imports.length := by
  have lengths := congrArg List.length h.spans_eq
  simpa [spans] using lengths

/-- What stands around an import, and where it stands. -/
theorem Of.split {i : Nat} {d : Import} (h : l.Of f o) (hd : o.imports[i]? = some d) :
    ∃ front part back, l.parts = front ++ part :: back ∧ front.length = i ∧
      d.span = ⟨byteSize (textOf front ++ part.gap),
        byteSize (textOf front ++ part.gap) + byteSize part.text⟩ := by
  have short : i < l.parts.length := by
    rw [h.length_eq]
    exact (List.getElem?_eq_some_iff.mp hd).1
  obtain ⟨front, back, parts, rfl⟩ :=
    SourceFile.split_of_getElem? (List.getElem?_eq_getElem short)
  refine ⟨front, _, back, parts, rfl, ?_⟩
  have span := congrArg (·[front.length]?) h.spans_eq
  simp only [spans, List.getElem?_map, hd, Option.map_some] at span
  rw [parts, getElem?_spansFrom, Nat.zero_add] at span
  exact (Option.some.inj span).symm

/-- A module that is read has a layout, and its prologue ends between two characters. -/
theorem exists_layout (hr : f.read = .ok (some o)) : (∃ l : Layout, l.Of f o) ∧
    ∃ before after, f.text.toList = before ++ after ∧ byteSize before = o.prologueEnd := by
  obtain ⟨language, read⟩ := SourceFile.outline?_of_read hr
  obtain ⟨parts, last, whole, spans⟩ := exists_of_behind (outline?_behind read)
  exact ⟨⟨⟨parts, last⟩, whole, spans⟩, outline?_prologue read⟩

/-! ## Edits -/

/-- Imports on lines of their own behind a gap are the gap and the lines. -/
theorem textOf_written (gap : List Char) (f : SourceFile) (first : Import) (more : List Import) :
    textOf (written gap f.lineEnd.toList first more) =
      gap ++ (String.intercalate f.lineEnd ((first :: more).map (·.render))).toList := by
  induction more generalizing first gap with
  | nil => simp [written]
  | cons next more ih =>
    have rest := ih f.lineEnd.toList next
    simp only [written, List.map_cons, textOf_cons] at rest ⊢
    simp [rest, String.intercalate_cons_cons]

/-- Replacing an import changes the text where the import stands. -/
theorem replaceImport_layout {i : Nat} {d : Import} (h : l.Of f o) (hd : o.imports[i]? = some d)
    (first : Import) (more : List Import) :
    (l.replace i f.lineEnd.toList first more).text =
      (f.replaceImport d (first :: more)).text.toList := by
  obtain ⟨front, part, back, parts, rfl, span⟩ := h.split hd
  have around : f.text.toList =
      (textOf front ++ part.gap) ++ part.text ++ (textOf back ++ l.last) := by
    rw [← h.text_eq, text, parts]
    simp only [textOf_append, textOf_cons, List.append_assoc]
  rw [SourceFile.replaceImport, SourceFile.replaceSpan, String.toList_ofList, around, span,
    splice_append]
  simp [text, replace, parts, textOf_written]

/-- Adding an import changes the text behind the last import, behind the prologue or in front. -/
theorem addImport_layout {d : Import} {g : SourceFile} (h : l.Of f o) (hr : f.read = .ok (some o))
    (added : f.addImport d = .ok g) :
    (l.add f.lineEnd.toList o.prologueEnd d).text = g.text.toList := by
  have insert (before after piece : List Char) (whole : f.text.toList = before ++ after) :
      splice f.text.toList ⟨byteSize before, byteSize before⟩ piece = before ++ piece ++ after := by
    rw [whole]
    simpa using splice_append before [] after piece
  simp only [SourceFile.addImport, SourceFile.outline_of_read hr, bind, Except.bind] at added
  split at added
  · next import' there =>
    obtain rfl := Except.ok.inj added
    have something : l.parts ≠ [] := by
      rw [← List.length_pos_iff, h.length_eq, List.length_pos_iff]
      exact List.ne_nil_of_mem (List.mem_of_getLast? there)
    have stop : import'.span.stop = byteSize (textOf l.parts) := by
      have last : l.spans.getLast? = some import'.span := by
        rw [h.spans_eq, List.getLast?_map, there]
        rfl
      rw [getLast?_spansFrom 0 last, Nat.zero_add]
    rw [SourceFile.replaceSpan, String.toList_ofList, stop, insert _ _ _ h.text_eq.symm]
    rw [add_behind something]
    simp [text]
  · next none =>
    have nothing : l.parts = [] := by
      rw [← List.length_eq_zero_iff, h.length_eq, List.getLast?_eq_none_iff.mp none]
      rfl
    have whole : f.text.toList = l.last := by
      rw [← h.text_eq, text, nothing]
      rfl
    split at added
    · next zero =>
      obtain rfl := Except.ok.inj added
      have front : splice f.text.toList ⟨0, 0⟩ _ = _ :=
        insert [] l.last (d.render ++ f.lineEnd).toList whole
      rw [SourceFile.replaceSpan, String.toList_ofList, front]
      rw [zero, add_inFront nothing]
      simp [text]
    · next nonzero =>
      obtain rfl := Except.ok.inj added
      obtain ⟨-, before, after, cut, stop⟩ := exists_layout hr
      rw [SourceFile.replaceSpan, String.toList_ofList, ← stop, insert before after _ cut]
      have last : l.last = before ++ after := whole.symm.trans cut
      rw [← stop] at nonzero
      rw [add_behindPrologue nothing last nonzero]
      simp [text]

end Layout

end ModuleRepair
