import ModuleRepair.Proofs.Script.Attributes
import ModuleRepair.Proofs.SourceFile.Removal
import ModuleRepair.Proofs.Text.Crlf

/-!
# Edits and line ends

A file with Windows line ends keeps them when an import is added or replaced, a declaration is
marked as exported or a statement is removed, with two exceptions (`edits_keep_crlf`): an import
that is added right behind the line that names an interpreter splits the end of that line, and a
statement alone on a last line without an end leaves the carriage return of the line in front
(`unended_splits`).
-/
namespace ModuleRepair

open ModuleRepair.Text ModuleRepair.Script

/-! ## Imports as text -/

/-- An import whose parts have Windows line ends, if they have any. -/
structure Import.InCrlf (d : Import) : Prop where
  specifier : Text.InCrlf d.specifier.toList
  quote : Text.InCrlf d.quote.toList
  defaultName : ∀ name ∈ d.defaultName, Text.InCrlf name.toList
  namespaceName : ∀ name ∈ d.namespaceName, Text.InCrlf name.toList
  named : ∀ b ∈ d.named, Text.InCrlf b.name.toList ∧ ∀ name ∈ b.renamed, Text.InCrlf name.toList
  attributes : ∀ a ∈ d.attributes, Text.InCrlf a.toList

/-- An import that is made of names and a specifier without line ends. -/
theorem Import.inCrlf_fresh {specifier : String} {defaultName : Option String}
    {names : List String} (unbroken : Unbroken specifier.toList)
    (unbroken' : ∀ name ∈ defaultName, Unbroken name.toList)
    (unbroken'' : ∀ name ∈ names, Unbroken name.toList) :
    (Import.fresh specifier defaultName names).InCrlf where
  specifier := .of_unbroken unbroken
  quote := show Text.InCrlf "\"".toList by decide
  defaultName name there := .of_unbroken (unbroken' name there)
  namespaceName := nofun
  named b there := by
    obtain ⟨name, named, rfl⟩ := exists_of_mem_fresh there
    exact ⟨.of_unbroken (unbroken'' name named), nofun⟩
  attributes := nofun

theorem mem_of_given {text : Option String} {s : String} (h : given text = some s) : s ∈ text :=
  (Option.filter_eq_some_iff.mp h).1

theorem inCrlf_intercalate {sep : String} {parts : List String} (between : InCrlf sep.toList)
    (h : ∀ part ∈ parts, InCrlf part.toList) : InCrlf (sep.intercalate parts).toList := by
  induction parts with
  | nil => exact .nil
  | cons part parts ih =>
    obtain ⟨first, rest⟩ := List.forall_mem_cons.mp h
    cases parts with
    | nil => simpa using first
    | cons next parts =>
      rw [String.intercalate_cons_cons, String.toList_append, String.toList_append]
      exact (first.append between).append (ih rest)

section

variable {d : Import}

theorem NamedImport.inCrlf_render {b : NamedImport} (name : InCrlf b.name.toList)
    (renamed : ∀ name ∈ b.renamed, InCrlf name.toList) : InCrlf b.render.toList := by
  have marked : InCrlf (if b.isType then "type " ++ b.name else b.name).toList := by
    split
    · rw [String.toList_append]
      exact InCrlf.append (by decide) name
    · exact name
  simp only [render]
  generalize (if b.isType then "type " ++ b.name else b.name) = mark at marked ⊢
  split
  · next a there =>
    split
    · exact marked
    · rw [String.toList_append, String.toList_append]
      exact (marked.append (by decide)).append (renamed a (mem_of_given there))
  · exact marked

namespace Import

theorem InCrlf.clauses (h : d.InCrlf) : ∀ clause ∈ d.clauses, Text.InCrlf clause.toList := by
  unfold Import.clauses
  rw [List.forall_mem_append, List.forall_mem_append]
  refine ⟨⟨fun name there => ?_, fun clause there => ?_⟩, ?_⟩
  · exact h.defaultName name (mem_of_given (Option.mem_toList.mp there))
  · obtain ⟨name, named, rfl⟩ := Option.map_eq_some_iff.mp (Option.mem_toList.mp there)
    rw [String.toList_append]
    exact .append (by decide) (h.namespaceName name (mem_of_given named))
  · split
    · nofun
    · have inside : ∀ part ∈ d.named.map (·.render), Text.InCrlf part.toList := by
        rw [List.forall_mem_map]
        exact fun b there => NamedImport.inCrlf_render (h.named b there).1 (h.named b there).2
      rw [List.forall_mem_singleton, String.toList_append, String.toList_append]
      exact (Text.InCrlf.append (by decide) (inCrlf_intercalate (by decide) inside)).append
        (by decide)

theorem InCrlf.quotedSpecifier (h : d.InCrlf) : Text.InCrlf d.quotedSpecifier.toList := by
  have quote : Text.InCrlf (if d.quote = "" then "\"" else d.quote).toList := by
    split
    · decide
    · exact h.quote
  rw [Import.quotedSpecifier, String.toList_append, String.toList_append]
  exact (quote.append h.specifier).append quote

theorem InCrlf.render (h : d.InCrlf) : Text.InCrlf d.render.toList := by
  unfold Import.render
  simp only [String.toList_append]
  refine .append (.append ?_ ?_) ?_
  · split
    · rw [String.toList_append]
      exact .append (by decide) h.quotedSpecifier
    · next clauses _ =>
      simp only [String.toList_append]
      refine .append (.append (.append ?_ (inCrlf_intercalate (by decide) h.clauses)) (by decide))
        h.quotedSpecifier
      split <;> decide
  · split
    · next a there =>
      rw [String.toList_append]
      exact .append (by decide) (h.attributes a (mem_of_given there))
    · decide
  · split <;> decide

end Import

end

/-! ## Spans -/

/-- A span of a text with Windows line ends that starts and stops outside of them. -/
def Text.Span.OutsidePairs (s : List Char) (span : Span) : Prop :=
  ∃ before piece after, s = before ++ piece ++ after ∧
    span = ⟨byteSize before, byteSize before + byteSize piece⟩ ∧
    InCrlf before ∧ InCrlf piece ∧ InCrlf after

namespace Text.Span.OutsidePairs

variable {s : List Char} {span : Span} {f : SourceFile}

theorem front (h : InCrlf s) : OutsidePairs s ⟨0, 0⟩ :=
  ⟨[], [], s, rfl, rfl, .nil, .nil, h⟩

theorem start (h : OutsidePairs s span) : OutsidePairs s ⟨span.start, span.start⟩ := by
  obtain ⟨before, piece, after, rfl, rfl, first, second, third⟩ := h
  exact ⟨before, [], piece ++ after, by simp, rfl, first, .nil, second.append third⟩

theorem stop (h : OutsidePairs s span) : OutsidePairs s ⟨span.stop, span.stop⟩ := by
  obtain ⟨before, piece, after, rfl, rfl, first, second, third⟩ := h
  exact ⟨before ++ piece, [], after, by simp, by simp, first.append second, .nil, third⟩

/-- What is put in place of the span decides. -/
theorem replaceSpan (h : OutsidePairs f.text.toList span) {new : String}
    (fits : InCrlf new.toList) : InCrlf (f.replaceSpan span new).text.toList := by
  obtain ⟨before, piece, after, whole, rfl, first, -, third⟩ := h
  rw [SourceFile.replaceSpan, String.toList_ofList, whole, splice_append]
  exact (first.append fits).append third

/-- Removing what is in the span keeps the line ends, unless it stands alone on a last line without
an end. -/
theorem removeStatement (h : OutsidePairs f.text.toList span) :
    InCrlf (f.removeStatement span).text.toList ↔ ¬SourceFile.EndsAlone
      (takeBytes span.start f.text.toList) (dropBytes span.stop f.text.toList) := by
  obtain ⟨before, piece, after, whole, rfl, first, -, third⟩ := h
  obtain ⟨m, text⟩ := SourceFile.removeStatement_text whole
  have inFront : takeBytes (byteSize before) f.text.toList = before := by
    rw [whole, List.append_assoc, takeBytes_byteSize]
  have behind : dropBytes (byteSize before + byteSize piece) f.text.toList = after := by
    rw [whole, ← byteSize_append, dropBytes_byteSize]
  rw [text, inFront, behind]
  exact m.inCrlf_iff first third

end Text.Span.OutsidePairs

/-! ## Statements -/

namespace Script

section

variable {l : Language} {text : List Char} {items : List Item} {item : Item}

/-- A statement starts and stops outside of line ends. -/
theorem outsidePairs_of_mem (h : items? l text = some items) (there : item ∈ items)
    (plain : item.statement ≠ .hashBang) (crlf : InCrlf text) : item.span.OutsidePairs text := by
  obtain ⟨c, d, ⟨before, whole, start⟩, read, span⟩ := exists_statementHere h there plain
  obtain ⟨piece, behind, stop⟩ : c.skipGap.Reaches d := statementHere_forward _ _ _ _ read
  obtain ⟨piece', behind', closed⟩ := statementHere_ends _ _ _ _ read
  obtain rfl := List.append_cancel_right (behind.symm.trans behind')
  simp only [Cursor.start, Nat.zero_add] at whole start
  -- The statement starts with a token, and ends where something of it can be seen.
  have first : c.skipGap.rest.head? ≠ some '\n' := by
    intro feed
    obtain ⟨rest, split⟩ := List.head?_eq_some_iff.mp feed
    cases Cursor.isSpace_skipGap split
  have last : piece.getLast? ≠ some '\r' :=
    closed.shown.getLast?_ne List.mem_cons_self
  rw [whole] at crlf
  obtain ⟨inFront, rest⟩ := crlf.of_append (.of_right first)
  rw [behind] at rest
  obtain ⟨inside, after⟩ := rest.of_append (.of_left last)
  refine ⟨before, piece, d.rest, ?_, ?_, inFront, inside, after⟩
  · rw [whole, behind, List.append_assoc]
  · rw [span, stop, start]

/-- The attributes of an import of a file with Windows line ends have such line ends. -/
theorem inCrlf_attributes {d : Import} (h : items? l text = some items) (there : item ∈ items)
    (imports : item.import? = some d) (crlf : InCrlf text) :
    ∀ a ∈ d.attributes, InCrlf a.toList := by
  obtain ⟨statement, span⟩ := item
  cases statement with
  | importing i =>
    obtain rfl := Option.some.inj imports
    intro a attributed
    obtain ⟨c, d, ⟨before, whole, -⟩, read, -⟩ := exists_statementHere h there nofun
    obtain ⟨⟨front, back, split⟩, starts, ends⟩ := statementHere_excerpt read a attributed
    have around : text = (before ++ front) ++ (a.toList ++ back) := by
      rw [show text = before ++ c.skipGap.rest from whole, ← split]
      simp only [List.append_assoc]
    have first : (a.toList ++ back).head? ≠ some '\n' := by
      rw [List.head?_append, List.head?_eq_some_head ends.ne_nil, Option.some_or,
        ← List.head?_eq_some_head]
      exact starts
    rw [around] at crlf
    have rest := (crlf.of_append (.of_right first)).2
    exact (rest.of_append (.of_left (ends.getLast?_ne List.mem_cons_self))).1
  | _ => cases imports

/-- A declaration that is not exported starts where its statement does. -/
theorem declared_of_alone {s : Scope} {c d : Cursor} {x : Declared}
    (read : statementHere s c = some (.declaration x, d)) : x.span = ⟨c.offset, d.offset⟩ := by
  have imports : Answers (importStatement s) (· ≠ .declaration x) :=
    importStatement_answers nofun trivial (.anything _) fun _ _ _ _ _ _ => nofun
  have exports : Answers (exportStatement s) (· ≠ .declaration x) :=
    exportStatement_answers ⟨nofun, fun _ => nofun, fun _ => nofun, fun _ _ => nofun,
      fun _ => nofun⟩ s
  rcases Reader.or_of_or read with read | read
  · exact absurd rfl (imports _ _ _ read)
  rcases Reader.or_of_or read with read | read
  · exact absurd rfl (exports _ _ _ read)
  rcases Reader.or_of_or read with read | read
  · obtain ⟨y, e, here, read⟩ := Reader.exists_of_bind read
    have span := declared_span s _ here
    split at read
    · cases read
      exact span
    · cases read
  · rcases Reader.or_of_or read with read | read
    · obtain ⟨_, e, -, read⟩ := Reader.exists_of_bind read
      obtain ⟨_, e, -, read⟩ := Reader.exists_of_bind read
      cases read
    · obtain ⟨_, e, -, read⟩ := Reader.exists_of_bind read
      cases read

/-- The line that names an interpreter stops in front of a line feed, or with the text. -/
theorem hashBang_stop {span : Span} {rest : List Item}
    (h : items? l text = some (⟨.hashBang, span⟩ :: rest)) : ∃ before after,
      text = before ++ after ∧ span.stop = byteSize before ∧ before ≠ [] ∧
        ∀ c ∈ after.head?, c = '\n' := by
  rw [items?_eq] at h
  split at h
  · next item stop bang =>
    obtain ⟨_, -, same⟩ := Option.map_eq_some_iff.mp h
    obtain ⟨rfl, -⟩ := List.cons.inj same
    obtain ⟨⟨before, whole, offset⟩, less, -, stops, -⟩ := hashBangItem?_closes bang
    obtain ⟨_, token, ⟨⟩⟩ := Option.map_eq_some_iff.mp bang
    obtain ⟨n, measured, rfl⟩ := Option.map_eq_some_iff.mp token
    obtain ⟨line, -, -, behind⟩ := hashBang?_eq_some measured
    rw [← Cursor.advance_rest] at behind
    have length : text.length = _ := congrArg List.length whole
    simp only [Cursor.start, Nat.zero_add] at whole offset
    refine ⟨before, _, whole, stops.symm.trans offset, ?_, behind⟩
    rintro rfl
    rw [List.nil_append] at length
    omega
  · exact absurd rfl (itemsFrom_head h _ rfl)

end

end Script

/-! ## Edits -/

namespace SourceFile

variable {f : SourceFile} {o : Outline} {d : Import}

/-- Whether an import is added right behind the line that names an interpreter, and the text goes
on behind that line. -/
def AddsBehindInterpreter (f : SourceFile) (o : Outline) : Prop :=
  o.imports = [] ∧ ∃ items span, f.items? = some items ∧
    items.takeWhile Item.inPrologue = [⟨.hashBang, span⟩] ∧ span.stop < byteSize f.text.toList

theorem inCrlf_lineEnd (f : SourceFile) (crlf : InCrlf f.text.toList)
    (broken : '\n' ∈ f.text.toList) : f.lineEnd = "\r\n" := by
  rw [lineEnd, if_pos (crlf.contains_pair broken)]

/-- An import starts and stops outside of line ends. -/
theorem outsidePairs_of_import (hr : f.read = .ok (some o)) (crlf : InCrlf f.text.toList)
    (hd : d ∈ o.imports) : d.span.OutsidePairs f.text.toList := by
  obtain ⟨items, read, rfl⟩ := items?_of_read hr
  obtain ⟨l, -, read⟩ := Option.bind_eq_some_iff.mp read
  obtain ⟨item, there, imports⟩ := List.mem_filterMap.mp hd
  rw [import?_span imports]
  exact outsidePairs_of_mem read there (ne_hashBang_of_import imports) crlf

theorem inCrlf_of_attributes (hr : f.read = .ok (some o)) (crlf : InCrlf f.text.toList)
    (hd : d ∈ o.imports) : ∀ a ∈ d.attributes, InCrlf a.toList := by
  obtain ⟨items, read, rfl⟩ := items?_of_read hr
  obtain ⟨l, -, read⟩ := Option.bind_eq_some_iff.mp read
  obtain ⟨item, there, imports⟩ := List.mem_filterMap.mp hd
  exact inCrlf_attributes read there imports crlf

/-- A line feed behind the line that names an interpreter has its carriage return in front of it. -/
theorem behindInterpreter_inCrlf_iff {items : List Item} {span : Span} (hr : f.items? = some items)
    (one : items.takeWhile Item.inPrologue = [⟨.hashBang, span⟩]) (crlf : InCrlf f.text.toList)
    (hd : d.InCrlf) : span.stop ≠ 0 ∧
      (InCrlf (f.replaceSpan ⟨span.stop, span.stop⟩ ("\r\n" ++ d.render)).text.toList ↔
        ¬span.stop < byteSize f.text.toList) := by
  obtain ⟨l, -, read⟩ := Option.bind_eq_some_iff.mp hr
  have whole := List.takeWhile_append_dropWhile (p := Item.inPrologue) (l := items)
  rw [one, List.singleton_append] at whole
  rw [← whole] at read
  obtain ⟨before, after, text, stop, some, feed⟩ := hashBang_stop read
  have positive : byteSize before ≠ 0 := mt byteSize_eq_zero.mp some
  have new : (f.replaceSpan ⟨span.stop, span.stop⟩ ("\r\n" ++ d.render)).text.toList =
      before ++ (['\r', '\n'] ++ d.render.toList ++ after) := by
    rw [replaceSpan, String.toList_ofList, text, stop]
    simpa using splice_append before [] after ("\r\n" ++ d.render).toList
  refine ⟨stop ▸ positive, ?_⟩
  rw [new, stop, text, byteSize_append]
  cases after with
  | nil =>
    rw [text, List.append_nil] at crlf
    have fits : InCrlf (before ++ (['\r', '\n'] ++ d.render.toList ++ [])) := by
      rw [List.append_nil]
      exact crlf.append (InCrlf.append .pair hd.render)
    exact iff_of_true fits (by simp)
  | cons c rest =>
    obtain rfl := feed c rfl
    rw [text] at crlf
    have carriage := crlf.before_feed before rest rfl
    refine iff_of_false (fun split => ?_) (not_not_intro ?_)
    · cases split.head?_behind carriage
    · have size := Char.utf8Size_pos '\n'
      rw [byteSize_cons]
      omega

theorem addsBehindInterpreter_iff {items : List Item} (hr : f.items? = some items) :
    f.AddsBehindInterpreter o ↔ o.imports = [] ∧ ∃ span,
      items.takeWhile Item.inPrologue = [⟨.hashBang, span⟩] ∧
        span.stop < byteSize f.text.toList := by
  refine and_congr_right fun _ => ⟨?_, fun ⟨span, one, less⟩ => ⟨items, span, hr, one, less⟩⟩
  rintro ⟨items', span, hr', one, less⟩
  obtain rfl := Option.some.inj (hr.symm.trans hr')
  exact ⟨span, one, less⟩

theorem inCrlf_behindLineEnd (crlf : InCrlf f.text.toList) (broken : '\n' ∈ f.text.toList)
    (hd : d.InCrlf) : InCrlf (f.lineEnd ++ d.render).toList := by
  rw [inCrlf_lineEnd f crlf broken, String.toList_append]
  exact InCrlf.append .pair hd.render

/-- Behind a prologue, an import is added within a line end just if the prologue is the line that
names an interpreter. -/
theorem behindPrologue_inCrlf_iff {items : List Item} {item : Item} (hr : f.items? = some items)
    (none : (Outline.ofItems items).imports = [])
    (ends : (items.takeWhile Item.inPrologue).getLast? = some item) (crlf : InCrlf f.text.toList)
    (broken : '\n' ∈ f.text.toList) (hd : d.InCrlf) :
    InCrlf (f.replaceSpan ⟨item.span.stop, item.span.stop⟩ (f.lineEnd ++ d.render)).text.toList ↔
      ¬f.AddsBehindInterpreter (Outline.ofItems items) := by
  obtain ⟨l, -, read⟩ := Option.bind_eq_some_iff.mp hr
  rw [addsBehindInterpreter_iff hr, and_iff_right none]
  by_cases bang : item.statement = .hashBang
  · obtain ⟨front, split⟩ := List.getLast?_eq_some_iff.mp ends
    have whole := List.takeWhile_append_dropWhile (p := Item.inPrologue) (l := items)
    rw [split, List.append_assoc, List.singleton_append] at whole
    obtain rfl := eq_nil_of_hashBang (whole ▸ read) bang
    obtain ⟨statement, span⟩ := item
    obtain rfl : statement = .hashBang := bang
    rw [inCrlf_lineEnd f crlf broken, (behindInterpreter_inCrlf_iff hr split crlf hd).2, split]
    simp
  · have there : item ∈ items := (List.takeWhile_sublist _).mem (List.mem_of_getLast? ends)
    have fits := (outsidePairs_of_mem read there bang crlf).stop.replaceSpan
      (inCrlf_behindLineEnd crlf broken hd)
    refine iff_of_true fits ?_
    rintro ⟨span, one, -⟩
    rw [one] at ends
    obtain rfl := Option.some.inj ends
    exact bang rfl

/-- An import that is added behind the others, at the front or behind a directive is outside of line
ends. Behind the line that names an interpreter it is within one, unless the text ends there. -/
theorem addImport_inCrlf_iff (hr : f.read = .ok (some o)) (crlf : InCrlf f.text.toList)
    (broken : '\n' ∈ f.text.toList) (hd : d.InCrlf) : ∃ g, f.addImport d = .ok g ∧
      (InCrlf g.text.toList ↔ ¬f.AddsBehindInterpreter o) := by
  simp only [addImport, outline_of_read hr, bind, Except.bind]
  split
  · next last imported =>
    have there := List.mem_of_getLast? imported
    have fits := (outsidePairs_of_import hr crlf there).stop.replaceSpan
      (inCrlf_behindLineEnd crlf broken hd)
    exact ⟨_, rfl, iff_of_true fits fun bang => List.ne_nil_of_mem there bang.1⟩
  · next none =>
    obtain ⟨items, read, rfl⟩ := items?_of_read hr
    split
    · next zero =>
      have inFront : InCrlf (d.render ++ f.lineEnd).toList := by
        rw [inCrlf_lineEnd f crlf broken, String.toList_append]
        exact hd.render.append .pair
      refine ⟨_, rfl, iff_of_true ((Span.OutsidePairs.front crlf).replaceSpan inFront) ?_⟩
      rw [addsBehindInterpreter_iff read]
      rintro ⟨-, span, one, -⟩
      have stop : span.stop = 0 := by simpa [Outline.ofItems, one] using zero
      exact (behindInterpreter_inCrlf_iff read one crlf hd).1 stop
    · next nonzero =>
      refine ⟨_, rfl, ?_⟩
      cases ends : (items.takeWhile Item.inPrologue).getLast? with
      | none => exact absurd (by simp [Outline.ofItems, ends]) nonzero
      | some item =>
        have stop : (Outline.ofItems items).prologueEnd = item.span.stop := by
          simp [Outline.ofItems, ends]
        rw [stop]
        exact behindPrologue_inCrlf_iff read (List.getLast?_eq_none_iff.mp none) ends crlf broken hd

theorem replaceImport_inCrlf (hr : f.read = .ok (some o)) (crlf : InCrlf f.text.toList)
    (broken : '\n' ∈ f.text.toList) {new : List Import} (hd : d ∈ o.imports)
    (fits : ∀ n ∈ new, n.InCrlf) : InCrlf (f.replaceImport d new).text.toList := by
  refine (outsidePairs_of_import hr crlf hd).replaceSpan (inCrlf_intercalate ?_ ?_)
  · rw [inCrlf_lineEnd f crlf broken]
    exact .pair
  · rw [List.forall_mem_map]
    exact fun n there => (fits n there).render

theorem removeImport_inCrlf_iff (hr : f.read = .ok (some o)) (crlf : InCrlf f.text.toList)
    (hd : d ∈ o.imports) : InCrlf (f.removeImport d).text.toList ↔ ¬EndsAlone
      (takeBytes d.span.start f.text.toList) (dropBytes d.span.stop f.text.toList) :=
  (outsidePairs_of_import hr crlf hd).removeStatement

theorem removeDefaultExport_inCrlf_iff (hr : f.read = .ok (some o)) (crlf : InCrlf f.text.toList)
    {x : DefaultExport} (hx : o.defaultExport = some x) :
    ∃ g, f.removeDefaultExport = .ok (some g) ∧ (InCrlf g.text.toList ↔ ¬EndsAlone
      (takeBytes x.span.start f.text.toList) (dropBytes x.span.stop f.text.toList)) := by
  have removed : f.removeDefaultExport = .ok (some (f.removeStatement x.span)) := by
    simp only [removeDefaultExport, outline_of_read hr, bind, Except.bind, hx]
    rfl
  obtain ⟨items, read, rfl⟩ := items?_of_read hr
  obtain ⟨l, -, read⟩ := Option.bind_eq_some_iff.mp read
  obtain ⟨item, there, offered⟩ := List.exists_of_findSome?_eq_some hx
  refine ⟨_, removed, ?_⟩
  rw [defaultExport?_span offered]
  exact (outsidePairs_of_mem read there (ne_hashBang_of_defaultExport offered) crlf).removeStatement

theorem markExported_inCrlf (hr : f.read = .ok (some o)) (crlf : InCrlf f.text.toList)
    {name : String} {g : SourceFile} (marked : f.markExported name = .ok (some g)) :
    InCrlf g.text.toList := by
  simp only [markExported, outline_of_read hr, bind, Except.bind] at marked
  split at marked
  · cases marked
  · next x declared =>
    split at marked
    · cases marked
    · next alone =>
      cases marked
      obtain ⟨items, read, rfl⟩ := items?_of_read hr
      obtain ⟨l, -, read⟩ := Option.bind_eq_some_iff.mp read
      obtain ⟨⟨statement, span⟩, there, declares⟩ :=
        List.mem_flatMap.mp (List.mem_of_find?_eq_some declared)
      cases statement with
      | exportDeclaration y =>
        obtain ⟨name, -, rfl⟩ := List.mem_map.mp declares
        exact absurd rfl alone
      | declaration y =>
        obtain ⟨name, -, rfl⟩ := List.mem_map.mp declares
        have plain : Statement.declaration y ≠ .hashBang := by
          rintro ⟨⟩
        obtain ⟨c, e, -, here, stands⟩ := exists_statementHere read there plain
        have same : y.span = span := (declared_of_alone here).trans stands.symm
        have fits : InCrlf (f.replaceSpan ⟨span.start, span.start⟩ "export ").text.toList :=
          (outsidePairs_of_mem read there plain crlf).start.replaceSpan (by decide)
        exact same ▸ fits
      | _ => cases declares

/-- Whether a statement stands alone on a last line without an end. -/
def StandsLast (f : SourceFile) (span : Span) : Prop :=
  EndsAlone (takeBytes span.start f.text.toList) (dropBytes span.stop f.text.toList)

/-- Edits of a file with Windows line ends keep them. Only an import right behind the line that
names an interpreter, and the removal of a statement alone on a last line without an end, leave a
carriage return on its own. -/
theorem edits_keep_crlf (hr : f.read = .ok (some o)) (crlf : InCrlf f.text.toList)
    (broken : '\n' ∈ f.text.toList) :
    (∀ specifier defaultName names, Unbroken specifier.toList →
      (∀ name ∈ defaultName, Unbroken name.toList) → (∀ name ∈ names, Unbroken name.toList) →
      ∃ g, f.addImport (Import.fresh specifier defaultName names) = .ok g ∧
        (InCrlf g.text.toList ↔ ¬f.AddsBehindInterpreter o)) ∧
    (∀ d ∈ o.imports, (∀ a ∈ d.attributes, InCrlf a.toList) ∧
      (∀ new, (∀ n ∈ new, n.InCrlf) → InCrlf (f.replaceImport d new).text.toList) ∧
      (InCrlf (f.removeImport d).text.toList ↔ ¬f.StandsLast d.span)) ∧
    (∀ name g, f.markExported name = .ok (some g) → InCrlf g.text.toList) ∧
    ∀ x, o.defaultExport = some x → ∃ g, f.removeDefaultExport = .ok (some g) ∧
      (InCrlf g.text.toList ↔ ¬f.StandsLast x.span) := by
  refine ⟨fun specifier defaultName names unbroken unbroken' unbroken'' => ?_, fun d hd => ?_,
    fun name g => markExported_inCrlf hr crlf, fun x => removeDefaultExport_inCrlf_iff hr crlf⟩
  · exact addImport_inCrlf_iff hr crlf broken
      (Import.inCrlf_fresh unbroken unbroken' unbroken'')
  · exact ⟨inCrlf_of_attributes hr crlf hd, fun new => replaceImport_inCrlf hr crlf broken hd,
      removeImport_inCrlf_iff hr crlf hd⟩

end SourceFile

/-- A page with Windows line ends. -/
def windowsPage : SourceFile where
  path := "/proj/src/page.ts"
  text := "import a from \"./a\";\r\n\r\nconst page = a();\r\nexport default page;\r\n"
  saved := ""
  root := ⟨"@/", "/proj"⟩

/-- The import of the page. -/
def windowsImport : Import :=
  ⟨"./a", some "a", none, [], false, "\"", true, none, ⟨0, 20⟩⟩

def windowsOutline : Outline where
  imports := [windowsImport]
  defaultExport := some ⟨.identifier, some "page", ⟨43, 63⟩⟩
  declarations := [⟨"page", .blockVariable, ⟨24, 41⟩, false⟩]

set_option maxRecDepth 100000 in
theorem windowsPage_keeps_crlf : windowsPage.read = .ok (some windowsOutline) ∧
    InCrlf windowsPage.text.toList ∧ '\n' ∈ windowsPage.text.toList ∧
    (∃ g, windowsPage.addImport (Import.fresh "./b" none ["b"]) = .ok g ∧
      (InCrlf g.text.toList ↔ ¬windowsPage.AddsBehindInterpreter windowsOutline)) ∧
    (InCrlf (windowsPage.removeImport windowsImport).text.toList ↔
      ¬windowsPage.StandsLast windowsImport.span) := by
  have read : windowsPage.read = .ok (some windowsOutline) := by decide +kernel
  have crlf : InCrlf windowsPage.text.toList := by decide +kernel
  have broken : '\n' ∈ windowsPage.text.toList := by decide +kernel
  obtain ⟨added, imports, -⟩ := SourceFile.edits_keep_crlf read crlf broken
  exact ⟨read, crlf, broken, added "./b" none ["b"] (by decide) nofun (by decide),
    (imports windowsImport List.mem_cons_self).2.2⟩

/-- Two imports, and no line end behind the second one. -/
def unendedModule : SourceFile where
  path := "/proj/src/page.ts"
  text := "import a from \"./a\";\r\nimport b from \"./b\";"
  saved := ""
  root := ⟨"@/", "/proj"⟩

/-- The import on the last line. -/
def lastImport : Import :=
  ⟨"./b", some "b", none, [], false, "\"", true, none, ⟨22, 42⟩⟩

def unendedOutline : Outline where
  imports := [⟨"./a", some "a", none, [], false, "\"", true, none, ⟨0, 20⟩⟩, lastImport]

set_option maxRecDepth 100000 in
/-- Without the last import, the carriage return of the line in front is left. -/
theorem unended_splits : unendedModule.read = .ok (some unendedOutline) ∧
    InCrlf unendedModule.text.toList ∧ '\n' ∈ unendedModule.text.toList ∧
    unendedOutline.imports[1]? = some lastImport ∧
    (unendedModule.removeImport lastImport).text = "import a from \"./a\";\r" ∧
    ¬InCrlf (unendedModule.removeImport lastImport).text.toList := by
  decide +kernel

end ModuleRepair
