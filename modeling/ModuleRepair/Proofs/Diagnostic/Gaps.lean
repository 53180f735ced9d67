import ModuleRepair.Proofs.Diagnostic.Lasting
import ModuleRepair.Proofs.SourceFile.Layout

/-!
# Fixes leave alone what stands between imports

The text of a module is that of its imports with gaps around them. Whatever the diagnostics, a fixed
module has the same gaps in the same order: an import is kept as it is or replaced by others, each
on a line of its own, and new ones follow the last import (`fixFile_keeps_gaps`). It is assumed that
the module is read again with its imports where the edit has put them (`ReportsInPlace`).
-/
namespace ModuleRepair

open ModuleRepair.Text ModuleRepair.Script ModuleRepair.SourceFile Relation

namespace Layout

open Piece

/-- Whether parts are rendered imports, each behind a line end. -/
def AreLines (ends : List Char → Prop) (parts : List Piece) : Prop :=
  ∀ part ∈ parts, ends part.gap ∧ ∃ d : Import, part.text = d.render.toList

/-- Imports that are kept or replaced by rendered ones, with rendered ones added behind the last. -/
inductive Reworked (ends : List Char → Prop) : List Piece → List Piece → Prop
  | added {lines : List Piece} (are : AreLines ends lines) : Reworked ends [] lines
  | kept {part : Piece} {parts parts' : List Piece} (rest : Reworked ends parts parts') :
      Reworked ends (part :: parts) (part :: parts')
  | replaced {gap text : List Char} {first : Import} {lines parts parts' : List Piece}
      (are : AreLines ends lines) (rest : Reworked ends parts parts') :
      Reworked ends (⟨gap, text⟩ :: parts) (⟨gap, first.render.toList⟩ :: (lines ++ parts'))

/-- The texts that come of a layout. Where there is no import, new ones go behind the prologue or
to the front. -/
inductive FixedText (ends : List Char → Prop) (l : Layout) (prologueEnd : Nat) : List Char → Prop
  | among {parts : List Piece} (imports : l.parts ≠ []) (reworked : Reworked ends l.parts parts) :
      FixedText ends l prologueEnd (textOf parts ++ l.last)
  | behindPrologue {before after : List Char} {lines : List Piece} (none : l.parts = [])
      (prologue : prologueEnd ≠ 0) (around : l.last = before ++ after)
      (stop : byteSize before = prologueEnd) (are : AreLines ends lines) :
      FixedText ends l prologueEnd (before ++ textOf lines ++ after)
  | inFront {lines : List Piece} (none : l.parts = []) (prologue : prologueEnd = 0)
      (are : AreLines ends lines) :
      FixedText ends l prologueEnd ((lines.flatMap fun line => line.text ++ line.gap) ++ l.last)

/-- Whether some text stands outside of the imports. -/
def HoldsOutside (l : Layout) (s : List Char) : Prop :=
  (∃ part ∈ l.parts, s <:+: part.gap) ∨ s <:+: l.last

variable {ends : List Char → Prop} {parts parts' lines : List Piece} {eol : List Char}

theorem areLines_append {lines' : List Piece} :
    AreLines ends (lines ++ lines') ↔ AreLines ends lines ∧ AreLines ends lines' :=
  List.forall_mem_append

theorem areLines_singleton (may : ends eol) (d : Import) :
    AreLines ends [⟨eol, d.render.toList⟩] :=
  List.forall_mem_singleton.mpr ⟨may, d, rfl⟩

theorem areLines_map (may : ends eol) (ds : List Import) :
    AreLines ends (ds.map fun d => ⟨eol, d.render.toList⟩) := by
  intro part there
  obtain ⟨d, -, rfl⟩ := List.mem_map.mp there
  exact ⟨may, d, rfl⟩

/-- One of the lines replaced by others. -/
theorem AreLines.replace {front back : List Piece} {part : Piece}
    (h : AreLines ends (front ++ part :: back)) (may : ends eol) (first : Import)
    (more : List Import) : AreLines ends (front ++ (written part.gap eol first more ++ back)) := by
  obtain ⟨before, here⟩ := areLines_append.mp h
  obtain ⟨⟨gap, -⟩, behind⟩ := List.forall_mem_cons.mp here
  have lines : AreLines ends (written part.gap eol first more) :=
    List.forall_mem_cons.mpr ⟨⟨gap, first, rfl⟩, areLines_map may more⟩
  exact areLines_append.mpr ⟨before, areLines_append.mpr ⟨lines, behind⟩⟩

namespace Reworked

theorem refl (ends : List Char → Prop) (parts : List Piece) : Reworked ends parts parts := by
  induction parts with
  | nil => exact .added nofun
  | cons part parts ih => exact .kept ih

/-- One more import behind all others. -/
theorem add (h : Reworked ends parts parts') (are : AreLines ends lines) :
    Reworked ends parts (parts' ++ lines) := by
  induction h with
  | added are' => exact .added (areLines_append.mpr ⟨are', are⟩)
  | kept _ ih => exact .kept ih
  | replaced are' _ ih =>
    rw [List.cons_append, List.append_assoc]
    exact .replaced are' ih

/-- An import that is kept, replaced or new can be replaced again. -/
theorem replace {front back : List Piece} {part : Piece}
    (h : Reworked ends parts (front ++ part :: back)) (may : ends eol) (first : Import)
    (more : List Import) :
    Reworked ends parts (front ++ (written part.gap eol first more ++ back)) := by
  -- The import that is replaced is looked for in what the imports in front of it have become.
  generalize before : front ++ part :: back = now at h
  induction h generalizing front with
  | added are =>
    subst before
    exact .added (are.replace may first more)
  | kept rest ih =>
    cases front with
    | nil =>
      obtain ⟨rfl, rfl⟩ := List.cons.inj before
      exact .replaced (areLines_map may more) rest
    | cons head front =>
      obtain ⟨rfl, same⟩ := List.cons.inj before
      exact .kept (ih same)
  | @replaced gap text d lines parts parts' are rest ih =>
    cases front with
    | nil =>
      obtain ⟨rfl, rfl⟩ := List.cons.inj before
      rw [List.nil_append, written, List.cons_append, ← List.append_assoc]
      exact .replaced (areLines_append.mpr ⟨areLines_map may more, are⟩) rest
    | cons head front =>
      obtain ⟨rfl, same⟩ := List.cons.inj before
      rw [List.cons_append]
      rcases List.append_eq_append_iff.mp same with ⟨new, rfl, behind⟩ | ⟨new, rfl, behind⟩
      · cases new with
        | nil =>
          rw [List.append_nil] at are
          have later := @ih [] behind
          exact .replaced are later
        | cons head new =>
          rw [List.cons_append] at behind
          obtain ⟨rfl, rfl⟩ := List.cons.inj behind
          have lines := are.replace may first more
          have whole : Reworked ends (⟨gap, text⟩ :: parts) (⟨gap, d.render.toList⟩ :: _) :=
            .replaced lines rest
          simpa only [List.append_assoc] using whole
      · rw [List.append_assoc]
        exact .replaced are (ih behind.symm)

theorem ne_nil (h : Reworked ends parts parts') (imports : parts ≠ []) : parts' ≠ [] := by
  cases h with
  | added => exact absurd rfl imports
  | kept => simp
  | replaced => simp

/-- Every gap is there as it was. -/
theorem infix_textOf (h : Reworked ends parts parts') {part : Piece} (there : part ∈ parts) :
    part.gap <:+: textOf parts' := by
  have behind {s t u : List Char} (h : s <:+: u) : s <:+: t ++ u :=
    h.trans (List.suffix_append t u).isInfix
  induction h with
  | added => cases there
  | kept _ ih =>
    rw [textOf_cons, List.append_assoc]
    rcases List.mem_cons.mp there with rfl | there
    · exact (List.prefix_append ..).isInfix
    · exact behind (behind (ih there))
  | replaced _ _ ih =>
    rw [textOf_cons, textOf_append, List.append_assoc]
    rcases List.mem_cons.mp there with rfl | there
    · exact (List.prefix_append ..).isInfix
    · exact behind (behind (behind (ih there)))

/-- A single rendered import becomes a rendered import and lines behind it. -/
theorem singleton {gap : List Char} {d : Import}
    (h : Reworked ends [⟨gap, d.render.toList⟩] parts') :
    ∃ (first : Import) (lines : List Piece),
      parts' = ⟨gap, first.render.toList⟩ :: lines ∧ AreLines ends lines := by
  cases h with
  | kept rest =>
    cases rest with
    | added are => exact ⟨d, _, rfl, are⟩
  | replaced are rest =>
    cases rest with
    | added are' => exact ⟨_, _, rfl, areLines_append.mpr ⟨are, are'⟩⟩

end Reworked

/-- Lines with their ends behind them instead of in front. -/
theorem exists_lines_ended {gap : List Char} (may : ends gap) (first : Import)
    (are : AreLines ends lines) : ∃ lines', AreLines ends lines' ∧
      first.render.toList ++ textOf lines ++ gap =
        lines'.flatMap fun line => line.text ++ line.gap := by
  induction lines generalizing first with
  | nil => exact ⟨_, areLines_singleton may first, by simp⟩
  | cons line lines ih =>
    obtain ⟨⟨end', d, text⟩, are⟩ := List.forall_mem_cons.mp are
    obtain ⟨lines', are', same⟩ := ih d are
    refine ⟨⟨line.gap, first.render.toList⟩ :: lines', ?_, ?_⟩
    · exact List.forall_mem_cons.mpr ⟨⟨end', first, rfl⟩, are'⟩
    · rw [List.flatMap_cons, ← same, textOf_cons, text]
      simp only [List.append_assoc]

end Layout

/-! ## Edits -/

namespace Repairs

open Layout Piece

/-- Whether a module of a set is read with imports in the given places. -/
def ReadAt (files : SourceFile → Prop) (spans : List Span) (f : SourceFile) : Prop :=
  files f ∧ ∃ o, f.read = .ok (some o) ∧ o.imports.map (·.span) = spans

/-- Whenever an edit is allowed in a module of the set, the edited module is read with its imports
in the places where the edit has put them. -/
structure ReportsInPlace (allowed : List Import → Edit → Prop) (files : SourceFile → Prop) :
    Prop where
  replaced : ∀ {f o l i d first more}, files f → f.read = .ok (some o) → Layout.Of l f o →
    o.imports[i]? = some d → allowed o.imports (.replace i (first :: more)) →
    ReadAt files (l.replace i f.lineEnd.toList first more).spans
      (f.replaceImport d (first :: more))
  added : ∀ {f o l d g}, files f → f.read = .ok (some o) → Layout.Of l f o →
    allowed o.imports (.add d) → f.addImport d = .ok g →
    ReadAt files (l.add f.lineEnd.toList o.prologueEnd d).spans g

variable {r : Repairs} {root : AliasRoot} {own : Option String} {fixes : List Fix}
  {files : SourceFile → Prop} {f g : SourceFile} {o : Outline} {l : Layout} {path : String}

theorem exists_bindByName (d : Import) (name : String) :
    ∃ first more, bindByName d name = first :: more := by
  unfold bindByName
  split
  · exact ⟨_, _, rfl⟩
  · exact ⟨_, _, rfl⟩

/-- What fixes write in place of an import is an import at least. -/
theorem Repairing.exists_cons {ds new : List Import} {i : Nat}
    (h : Repairing r root own fixes ds (.replace i new)) : ∃ first more, new = first :: more := by
  cases h with
  | byName => exact exists_bindByName _ _
  | byDefault => exact ⟨_, _, rfl⟩
  | corrected => exact ⟨_, _, rfl⟩

theorem contains_of_infix {needle s : List Char} (h : needle <:+: s) :
    contains needle s = true := by
  induction s with
  | nil => simpa [contains] using h
  | cons c s ih =>
    rcases List.infix_cons_iff.mp h with start | later
    · simp [contains, List.isPrefixOf_iff_prefix.mpr start]
    · simp [contains, ih later]

theorem lineEnd_of_infix (h : ['\r', '\n'] <:+: f.text.toList) : f.lineEnd = "\r\n" := by
  rw [SourceFile.lineEnd, contains_of_infix h]
  rfl

/-- The first import stands on a line of its own. -/
theorem add_of_none (none : l.parts = []) (eol : List Char) (prologueEnd : Nat) (d : Import) :
    (l.add eol prologueEnd d).parts ≠ [] ∧ (l.add eol prologueEnd d).HoldsOutside eol := by
  by_cases prologue : prologueEnd = 0
  · rw [prologue, add_inFront none]
    exact ⟨List.cons_ne_nil _ _, .inr (List.prefix_append ..).isInfix⟩
  · simp only [Layout.add, none, prologue, ne_eq, not_true_eq_false, if_false]
    refine ⟨List.cons_ne_nil _ _, .inl ⟨_, List.mem_singleton_self _, ?_⟩⟩
    exact (List.suffix_append ..).isInfix

section

variable (inPlace : ReportsInPlace (Repairing r root own fixes) files)
include inPlace

/-- One edit changes the layout where it is made. -/
theorem layout_of_step (step : EditStep (Repairing r root own fixes) f g) (hf : files f)
    (hr : f.read = .ok (some o)) (laid : l.Of f o) :
    files g ∧ ∃ o' l', g.read = .ok (some o') ∧ Layout.Of l' g o' ∧
      ((∃ i first more, i < l.parts.length ∧ l' = l.replace i f.lineEnd.toList first more) ∨
        ∃ d, l' = l.add f.lineEnd.toList o.prologueEnd d) := by
  obtain ⟨o₀, e, ho, may, he⟩ := step
  obtain rfl : o = o₀ := by simpa [outline_of_read hr] using ho
  cases e with
  | remove i => cases may
  | replace i new =>
    obtain ⟨d, hd⟩ := may.getElem?
    obtain ⟨first, more, rfl⟩ := may.exists_cons
    obtain rfl : f.replaceImport d (first :: more) = g := by
      simpa [Edit.file, hd] using Except.ok.inj he
    obtain ⟨hg, o', hr', spans⟩ := inPlace.replaced hf hr laid hd may
    refine ⟨hg, o', _, hr', ⟨replaceImport_layout laid hd first more, spans.symm⟩, .inl ?_⟩
    refine ⟨i, first, more, ?_, rfl⟩
    rw [laid.length_eq]
    exact (List.getElem?_eq_some_iff.mp hd).1
  | add d =>
    obtain ⟨hg, o', hr', spans⟩ := inPlace.added hf hr laid may he
    exact ⟨hg, o', _, hr', ⟨addImport_layout laid hr he, spans.symm⟩, .inr ⟨d, rfl⟩⟩

/-- Edits of a module with imports rework them; the text behind the last one stays. The line ends
are those of the module at some time on the way to its last form. -/
theorem layout_of_edited (edits : Edited (Repairing r root own fixes) f g) (hf : files f)
    (hr : f.read = .ok (some o)) (laid : l.Of f o) (imports : l.parts ≠ [])
    (ends : List Char → Prop) {final : SourceFile}
    (may : ∀ k, Edited (Repairing r root own fixes) f k →
      Edited (Repairing r root own fixes) k final → ends k.lineEnd.toList)
    (rest : Edited (Repairing r root own fixes) g final) :
    files g ∧ ∃ o' l', g.read = .ok (some o') ∧ Layout.Of l' g o' ∧
      Reworked ends l.parts l'.parts ∧ l'.last = l.last := by
  induction edits with
  | refl => exact ⟨hf, o, l, hr, laid, .refl ends l.parts, rfl⟩
  | @tail g k before step ih =>
    obtain ⟨hg, o', l', hr', laid', reworked, last⟩ := ih (.head step rest)
    have lineEnd : ends g.lineEnd.toList := may g before (.head step rest)
    obtain ⟨hk, o'', l'', hr'', laid'', change⟩ := layout_of_step inPlace step hg hr' laid'
    refine ⟨hk, o'', l'', hr'', laid'', ?_⟩
    rcases change with ⟨i, first, more, inside, rfl⟩ | ⟨d, rfl⟩
    · obtain ⟨front, back, split, rfl⟩ := split_of_getElem? (List.getElem?_eq_getElem inside)
      generalize l'.parts[front.length] = part at split
      have parts : (l'.replace front.length g.lineEnd.toList first more).parts =
          front ++ (written part.gap g.lineEnd.toList first more ++ back) := by
        simp [Layout.replace, split]
      rw [split] at reworked
      rw [parts]
      exact ⟨reworked.replace lineEnd first more, last⟩
    · have something : l'.parts ≠ [] := reworked.ne_nil imports
      rw [add_behind something]
      exact ⟨reworked.add (areLines_singleton lineEnd d), last⟩

/-- Where there is no import, the first edit adds one; all others are made around it. -/
theorem fixedText_of_added {k : SourceFile} (step : EditStep (Repairing r root own fixes) f k)
    (rest : Edited (Repairing r root own fixes) k g) (hf : files f) (hr : f.read = .ok (some o))
    (laid : l.Of f o) (none : l.parts = []) {ends : List Char → Prop}
    (may : ∀ m, Edited (Repairing r root own fixes) f m →
      Edited (Repairing r root own fixes) m g → ends m.lineEnd.toList) :
    FixedText ends l o.prologueEnd g.text.toList := by
  have lineEnd : ends f.lineEnd.toList := may f .refl (.head step rest)
  obtain ⟨-, before, after, cut, stop⟩ := exists_layout hr
  have around : l.last = before ++ after := by
    rw [← cut, ← laid.text_eq, Layout.text, none]
    rfl
  obtain ⟨hk, o', l', hr', laid', change⟩ := layout_of_step inPlace step hf hr laid
  obtain ⟨i, -, -, inside, -⟩ | ⟨d, rfl⟩ := change
  · simp [none] at inside
  rw [← stop] at laid' ⊢
  by_cases prologue : byteSize before = 0
  · rw [prologue, add_inFront none] at laid'
    obtain ⟨-, o'', l'', -, laid'', reworked, last⟩ := layout_of_edited inPlace rest hk hr' laid'
      (List.cons_ne_nil _ _) ends (fun m later => may m (.head step later)) .refl
    obtain ⟨first, lines, parts, are⟩ := reworked.singleton
    obtain ⟨lines', are', same⟩ := exists_lines_ended lineEnd first are
    have front : FixedText ends l (byteSize before) _ := .inFront none prologue are'
    rw [← laid''.text_eq, Layout.text, last, parts]
    simpa [← same] using front
  · rw [add_behindPrologue none around prologue] at laid'
    obtain ⟨-, o'', l'', -, laid'', reworked, last⟩ := layout_of_edited inPlace rest hk hr' laid'
      (List.cons_ne_nil _ _) ends (fun m later => may m (.head step later)) .refl
    obtain ⟨first, lines, parts, are⟩ := reworked.singleton
    have are' : AreLines ends (⟨f.lineEnd.toList, first.render.toList⟩ :: lines) :=
      List.forall_mem_cons.mpr ⟨⟨lineEnd, first, rfl⟩, are⟩
    have behind : FixedText ends l (byteSize before) _ :=
      .behindPrologue none prologue around rfl are'
    rw [← laid''.text_eq, Layout.text, last, parts]
    simpa using behind

/-- Whatever edits fixes make, what stands between the imports is there as it was. -/
theorem fixedText_of_edited (edits : Edited (Repairing r root own fixes) f g) (hf : files f)
    (hr : f.read = .ok (some o)) (laid : l.Of f o) {ends : List Char → Prop}
    (may : ∀ k, Edited (Repairing r root own fixes) f k →
      Edited (Repairing r root own fixes) k g → ends k.lineEnd.toList) :
    FixedText ends l o.prologueEnd g.text.toList := by
  by_cases imports : l.parts = []
  · rcases edits.cases_head with rfl | ⟨k, step, rest⟩
    · obtain ⟨-, before, after, cut, stop⟩ := exists_layout hr
      have whole : l.last = f.text.toList := by
        rw [← laid.text_eq, Layout.text, imports]
        rfl
      have noLines : AreLines ends [] := List.forall_mem_nil _
      rw [← whole]
      by_cases prologue : o.prologueEnd = 0
      · exact .inFront imports prologue noLines
      · have around : l.last = before ++ after := whole.trans cut
        have same : FixedText ends l o.prologueEnd _ :=
          .behindPrologue imports prologue around stop noLines
        rwa [textOf_nil, List.append_nil, ← around] at same
    · exact fixedText_of_added inPlace step rest hf hr laid imports may
  · obtain ⟨-, o', l', -, laid', reworked, last⟩ :=
      layout_of_edited inPlace edits hf hr laid imports ends may .refl
    rw [← laid'.text_eq, Layout.text, last]
    exact .among imports reworked

/-- A line end outside of the imports is there after every edit, and decides how lines end. -/
theorem lineEnd_of_edited (edits : Edited (Repairing r root own fixes) f g) (hf : files f)
    (hr : f.read = .ok (some o)) (laid : l.Of f o) (imports : l.parts ≠ [])
    (holds : l.HoldsOutside ['\r', '\n']) : g.lineEnd = "\r\n" := by
  obtain ⟨-, o', l', -, laid', reworked, last⟩ := layout_of_edited inPlace edits hf hr laid imports
    (fun _ => True) (fun _ _ _ => trivial) .refl
  refine lineEnd_of_infix ?_
  rw [← laid'.text_eq, Layout.text, last]
  rcases holds with ⟨part, there, inside⟩ | inside
  · exact (inside.trans (reworked.infix_textOf there)).trans (List.prefix_append ..).isInfix
  · exact inside.trans (List.suffix_append ..).isInfix

/-- The lines of a module end as they did, if they end with a carriage return outside of the
imports. -/
theorem lineEnd_stays (edits : Edited (Repairing r root own fixes) f g) (hf : files f)
    (hr : f.read = .ok (some o)) (laid : l.Of f o) (holds : l.HoldsOutside ['\r', '\n']) :
    g.lineEnd = "\r\n" := by
  by_cases imports : l.parts = []
  · have lineEnd : f.lineEnd = "\r\n" := by
      refine lineEnd_of_infix ?_
      rw [← laid.text_eq, Layout.text, imports]
      simpa [HoldsOutside, imports] using holds
    rcases edits.cases_head with rfl | ⟨k, step, rest⟩
    · exact lineEnd
    · obtain ⟨hk, o', l', hr', laid', change⟩ := layout_of_step inPlace step hf hr laid
      obtain ⟨i, -, -, inside, -⟩ | ⟨d, rfl⟩ := change
      · simp [imports] at inside
      obtain ⟨imports', holds'⟩ := add_of_none imports f.lineEnd.toList o.prologueEnd d
      refine lineEnd_of_edited inPlace rest hk hr' laid' imports' ?_
      have same : f.lineEnd.toList = ['\r', '\n'] := by
        rw [lineEnd]
        rfl
      exact same ▸ holds'
  · exact lineEnd_of_edited inPlace edits hf hr laid imports holds

end

/-- The line ends that a module has on the way from one form to another. -/
def LineEnds (edits : SourceFile → SourceFile → Prop) (f g : SourceFile) (eol : List Char) : Prop :=
  ∃ k, edits f k ∧ edits k g ∧ eol = k.lineEnd.toList

/-- Whatever the diagnostics of a module are: every import of it is kept as it is or replaced by
rendered imports on lines of their own, new imports follow the last one, and all of the text between
the imports is there as it was, in the same order. Where there was no import, new ones follow the
prologue or stand in front. Lines end as those of the module do. No other module is changed. -/
theorem fixFile_keeps_gaps {w : Work} {diagnostics : List Diagnostic}
    (inPlace : ReportsInPlace
      (Repairing r w.project.root f.specifier? (r.fixes diagnostics)) files)
    (found : w.project.find? path = some f) (hf : files f) (hr : f.read = .ok (some o)) :
    let after := ((r.fixFile path diagnostics).run w).2.project
    let edits := Edited (Repairing r w.project.root f.specifier? (r.fixes diagnostics))
    ∃ g l, after.find? path = some g ∧ Layout.Of l f o ∧
      FixedText (LineEnds edits f g) l o.prologueEnd g.text.toList ∧
      (l.HoldsOutside ['\r', '\n'] → ∀ eol, LineEnds edits f g eol → eol = ['\r', '\n']) ∧
      ∀ other ≠ path, after.find? other = w.project.find? other := by
  intro after edits
  obtain ⟨alike, g, there, fixed⟩ :=
    fixAll_fixedBy r (upTo r.limit diagnostics) (.refl path _) found
  have edited : edits f g := fixed.edited fun _ there => there
  obtain ⟨l, laid⟩ := (exists_layout hr).1
  refine ⟨g, l, there, laid, ?_, ?_, alike.others⟩
  · exact fixedText_of_edited inPlace edited hf hr laid fun k before behind =>
      ⟨k, before, behind, rfl⟩
  · rintro holds eol ⟨k, before, -, rfl⟩
    rw [lineEnd_stays inPlace before hf hr laid holds]
    rfl

/-- A page with a comment in front of its imports and a statement behind them. -/
def priceLayout (ds : List Import) : Layout where
  parts := (ds.head?.map fun d => written "// prix élevés\n".toList ['\n'] d ds.tail).getD []
  last := "\n\nexport const n = prices;\n".toList

def pricePage (ds : List Import) : SourceFile where
  path := "/app/page.ts"
  text := String.ofList (priceLayout ds).text
  saved := ""
  root := ⟨"@/", "/app"⟩

def priceOutline (ds : List Import) : Outline where
  imports := placed 17 ds
  namedExports := ["n"]
  declarations :=
    let stop := byteSize (priceLayout ds).text - 1
    [⟨"n", .blockVariable, ⟨stop - 17, stop⟩, true⟩]

/-- The import of the page at first. -/
def priceImport : Import where
  specifier := "./price"
  defaultName := some "cost"
  namespaceName := some "prices"

/-- The imports of the page at first, and after either fix and both. -/
def priceImports : List (List Import) :=
  let all : Import := { specifier := "./price", namespaceName := some "prices" }
  let price : Import := { specifier := "./price", named := [⟨"price", some "cost", false⟩] }
  let cn : Import := { specifier := "@/lib/utils", named := [⟨"cn", none, false⟩] }
  [[priceImport], [priceImport, cn], [all, price], [all, price, cn]]

def priceWork : Work where
  project := ⟨"/app", ⟨"@/", "/app"⟩, .full, [pricePage [priceImport]]⟩

def priceComplaints : List Diagnostic := [
  { code := 2613
    message := "Did you mean to use 'import \x7b price \x7d from \"./price\"' instead?" },
  { code := 2304, message := "Cannot find name 'cn'." }]

theorem fixes_priceComplaints : standardRepairs.fixes priceComplaints =
    [.importByName "price" "./price", .addImport "cn"] := by
  decide +kernel

theorem pricePage_items : ∀ ds ∈ priceImports,
    (items? .typescript (priceLayout ds).text).map Outline.ofItems = some (priceOutline ds) := by
  decide +kernel

theorem priceLayout_spans : ∀ ds ∈ priceImports,
    (priceLayout ds).spans = (priceOutline ds).imports.map (·.span) := by
  decide +kernel

theorem priceLayout_byName : ∀ ds ∈ priceImports, ∀ d ∈ (priceOutline ds).imports.zipIdx,
    d.1.defaultName.isSome = true → ∀ first ∈ (bindByName d.1 "price").head?,
      ∃ ds' ∈ priceImports, (priceLayout ds).replace d.2 ['\n'] first
        (bindByName d.1 "price").tail = priceLayout ds' := by
  decide +kernel

theorem priceLayout_added : ∀ ds ∈ priceImports,
    "cn" ∉ namesOf (priceOutline ds).imports → ∃ ds' ∈ priceImports,
      (priceLayout ds).add ['\n'] (priceOutline ds).prologueEnd
        (importOf "cn" "@/lib/utils" false) = priceLayout ds' := by
  decide +kernel

theorem priceLayout_lineEnd : ∀ ds ∈ priceImports,
    contains ['\r', '\n'] (priceLayout ds).text = false := by
  decide +kernel

/-- The page, whichever of these imports it has. -/
def IsPricePage (f : SourceFile) (ds : List Import) : Prop :=
  ds ∈ priceImports ∧ f.path = "/app/page.ts" ∧ f.text.toList = (priceLayout ds).text

namespace IsPricePage

variable {ds : List Import} (h : IsPricePage f ds)
include h

theorem read : f.read = .ok (some (priceOutline ds)) := by
  obtain ⟨there, path, text⟩ := h
  have language : Language.ofPath f.path = .ok .typescript := by
    rw [path]
    rfl
  refine read_of_outline? language ?_
  rw [outline?, text]
  exact pricePage_items ds there

theorem layout (hr : f.read = .ok (some o)) (laid : l.Of f o) :
    o = priceOutline ds ∧ l = priceLayout ds := by
  obtain rfl := eq_of_read hr h.read
  exact ⟨rfl, laid.unique ⟨h.2.2.symm, priceLayout_spans ds h.1⟩⟩

theorem lineEnd : f.lineEnd.toList = ['\n'] := by
  rw [SourceFile.lineEnd, h.2.2, priceLayout_lineEnd ds h.1]
  rfl

/-- The page with its layout changed to that of other imports. -/
theorem readAt {ds' : List Import} (there : ds' ∈ priceImports) (path : g.path = f.path)
    (text : (priceLayout ds').text = g.text.toList) :
    ReadAt (fun f => ∃ ds, IsPricePage f ds) (priceLayout ds').spans g := by
  have page : IsPricePage g ds' := ⟨there, path.trans h.2.1, text.symm⟩
  exact ⟨⟨ds', page⟩, _, page.read, (priceLayout_spans ds' there).symm⟩

end IsPricePage

theorem pricePage_reports (root : AliasRoot) (own : Option String) :
    ReportsInPlace (Repairing standardRepairs root own (standardRepairs.fixes priceComplaints))
      fun f => ∃ ds, IsPricePage f ds := by
  rw [fixes_priceComplaints]
  constructor
  · rintro f o l i d first more ⟨ds, page⟩ hr laid hd may
    have text := replaceImport_layout laid hd first more
    obtain ⟨rfl, rfl⟩ := page.layout hr laid
    rw [page.lineEnd] at text ⊢
    generalize written : first :: more = new at may
    cases may with
    | byName asked hd' isSome =>
      obtain rfl := Option.some.inj (hd.symm.trans hd')
      obtain ⟨rfl, -⟩ := Fix.importByName.inj (by simpa using asked)
      have there := List.mk_mem_zipIdx_iff_getElem?.mpr hd
      obtain ⟨ds', there', same⟩ := priceLayout_byName ds page.1 (d, i) there isSome first
        (by simp [← written])
      rw [← written, List.tail_cons] at same
      rw [same] at text ⊢
      rw [← written]
      exact page.readAt there' rfl text
    | byDefault asked => simp at asked
    | corrected asked => simp at asked
  · rintro f o l d g ⟨ds, page⟩ hr laid may added
    have text := addImport_layout laid hr added
    obtain ⟨rfl, rfl⟩ := page.layout hr laid
    rw [page.lineEnd] at text ⊢
    cases may with
    | added asked fresh offered =>
      obtain rfl := Fix.addImport.inj (by simpa using asked)
      obtain rfl := Option.some.inj offered
      obtain ⟨ds', there, same⟩ := priceLayout_added ds page.1 fresh
      rw [same] at text ⊢
      exact page.readAt there (addImport_path added).1 text

theorem pricePage_keeps_gaps :
    let f := pricePage [priceImport]
    let fixes := standardRepairs.fixes priceComplaints
    let edits := Edited (Repairing standardRepairs priceWork.project.root f.specifier? fixes)
    let after := ((standardRepairs.fixFile "/app/page.ts" priceComplaints).run priceWork).2.project
    ReportsInPlace (Repairing standardRepairs priceWork.project.root f.specifier? fixes)
        (fun f => ∃ ds, IsPricePage f ds) ∧
      priceWork.project.find? "/app/page.ts" = some f ∧ IsPricePage f [priceImport] ∧
      f.read = .ok (some (priceOutline [priceImport])) ∧
      ∃ g l, after.find? "/app/page.ts" = some g ∧ Layout.Of l f (priceOutline [priceImport]) ∧
        FixedText (LineEnds edits f g) l (priceOutline [priceImport]).prologueEnd g.text.toList ∧
        (l.HoldsOutside ['\r', '\n'] → ∀ eol, LineEnds edits f g eol → eol = ['\r', '\n']) ∧
        ∀ other ≠ "/app/page.ts", after.find? other = priceWork.project.find? other := by
  intro f fixes edits after
  have page : IsPricePage f [priceImport] :=
    ⟨List.mem_cons_self, rfl, String.toList_ofList⟩
  have inPlace := pricePage_reports priceWork.project.root f.specifier?
  have found : priceWork.project.find? "/app/page.ts" = some f := rfl
  exact ⟨inPlace, found, page, page.read,
    fixFile_keeps_gaps inPlace found ⟨_, page⟩ page.read⟩

end Repairs

end ModuleRepair
