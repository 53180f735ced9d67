import ModuleRepair.Proofs.Import.Plain
import ModuleRepair.Proofs.Script.ImportLines
import ModuleRepair.Proofs.SourceFile.Reread

/-!
# Modules of import lines

A module that holds nothing but one rendered import a line is read as these imports, and so it is
after every edit that leaves it well-formed (`HoldsLines.reread`). Nothing is assumed of the parser
here.
-/
namespace ModuleRepair

open ModuleRepair.Text ModuleRepair.Script

namespace Edit

/-- The imports that the edit writes. -/
def new : Edit → List Import
  | remove _ => []
  | replace _ new => new
  | add d => [d]

/-- The edit with its imports as they are read back. -/
def normal : Edit → Edit
  | remove i => remove i
  | replace i new => replace i (new.map (·.normal))
  | add d => add d.normal

/-- Whether the edit finds its place among a number of imports, and leaves something there unless it
takes an import away. -/
def Fits (count : Nat) : Edit → Prop
  | remove i => i < count
  | replace i new => i < count ∧ new ≠ []
  | add _ => 0 < count

/-- Whether what the edit writes can be read back. -/
structure Writable (l : Language) (count : Nat) (e : Edit) : Prop where
  fits : e.Fits count
  wellFormed : ∀ d ∈ e.new, d.normal.WellFormed
  typed : l.typed = true ∨ ∀ d ∈ e.new, d.normal.Untyped

end Edit

namespace Edit

theorem mem_imports {e : Edit} {ds : List Import} {d : Import} (h : d ∈ e.imports ds) :
    d ∈ ds ∨ d ∈ e.new := by
  cases e with
  | remove i =>
    rcases List.mem_append.mp h with h | h
    · exact .inl (List.mem_of_mem_take h)
    · exact .inl (List.mem_of_mem_drop h)
  | replace i new =>
    rcases List.mem_append.mp h with h | h
    · exact (List.mem_append.mp h).imp_left List.mem_of_mem_take
    · exact .inl (List.mem_of_mem_drop h)
  | add d => exact List.mem_append.mp h

theorem new_normal (e : Edit) : e.normal.new = e.new.map (·.normal) := by
  cases e <;> rfl

theorem Writable.replaceOne {l : Language} {count i : Nat} {d : Import} (inside : i < count)
    (wellFormed : d.normal.WellFormed) (typed : l.typed = true ∨ d.normal.Untyped) :
    (replace i [d]).Writable l count where
  fits := ⟨inside, List.cons_ne_nil d []⟩
  wellFormed := List.forall_mem_singleton.mpr wellFormed
  typed := typed.imp_right List.forall_mem_singleton.mpr

end Edit

namespace SourceFile

/-- The module holds one rendered import a line and nothing else. -/
structure HoldsLines (l : Language) (ds : List Import) (f : SourceFile) : Prop where
  language : Language.ofPath? f.path = some l
  text : f.text = String.intercalate "\n" (ds.map (·.render))
  wellFormed : ∀ d ∈ ds, d.WellFormed
  typed : l.typed = true ∨ ∀ d ∈ ds, d.Untyped

variable {l : Language} {ds : List Import} {f f' : SourceFile} {o : Outline} {e : Edit}

theorem HoldsLines.read (h : HoldsLines l ds f) :
    f.read = .ok (some { imports := placed 0 ds }) := by
  have language : Language.ofPath f.path = .ok l := by simp [Language.ofPath, h.language]
  rw [SourceFile.read, language, h.text]
  exact congrArg Except.ok (outline?_rendered h.wellFormed h.typed)

theorem HoldsLines.toList_text (h : HoldsLines l ds f) : f.text.toList = linesText ds := by
  rw [h.text, render_lines h.wellFormed]

theorem HoldsLines.lineEnd (h : HoldsLines l ds f) : f.lineEnd = "\n" := by
  rw [SourceFile.lineEnd, h.toList_text,
    contains_eq_false (return_not_mem_linesText h.wellFormed)]
  rfl

theorem holdsLines_of_text (h : HoldsLines l ds f) (w : e.Writable l ds.length)
    (path : f'.path = f.path) (text : f'.text.toList = linesText (e.normal.imports ds)) :
    HoldsLines l (e.normal.imports ds) f' := by
  have new : ∀ d ∈ e.normal.imports ds, d ∈ ds ∨ ∃ d' ∈ e.new, d'.normal = d := by
    intro d hd
    have := Edit.mem_imports hd
    rwa [Edit.new_normal, List.mem_map] at this
  have wellFormed : ∀ d ∈ e.normal.imports ds, d.WellFormed := by
    intro d hd
    rcases new d hd with hd | ⟨d', hd', rfl⟩
    · exact h.wellFormed d hd
    · exact w.wellFormed d' hd'
  refine ⟨by rw [path, h.language], ?_, wellFormed, ?_⟩
  · rw [← String.toList_inj, text, render_lines wellFormed]
  · rcases h.typed with typed | untyped
    · exact .inl typed
    · refine w.typed.imp_right fun untypedNew d hd => ?_
      rcases new d hd with hd | ⟨d', hd', rfl⟩
      · exact untyped d hd
      · exact untypedNew d' hd'

/-- A declaration where it stands behind others. -/
def placedBehind (front : List Import) (d : Import) : Import :=
  { d with span := spanBehind front d }

theorem HoldsLines.placed_getElem? {front back : List Import} {d : Import}
    (h : HoldsLines l (front ++ d :: back) f) :
    (placed 0 (front ++ d :: back))[front.length]? = some (placedBehind front d) := by
  have size := length_placed 0 front
  rw [placed_append fun d hd => h.wellFormed d (List.mem_append_left _ hd), placed,
    List.getElem?_append_right (by omega), size]
  simp [placedBehind, spanBehind, render_toList (h.wellFormed d (by simp)).spelled]

theorem linesText_normal (ds : List Import) (h : ∀ d ∈ ds, d.normal.WellFormed) :
    (String.intercalate "\n" (ds.map (·.render))).toList = linesText (ds.map (·.normal)) := by
  have wellFormed : ∀ d ∈ ds.map (·.normal), d.WellFormed := by
    intro d hd
    obtain ⟨d', hd', rfl⟩ := List.mem_map.mp hd
    exact h d' hd'
  rw [← render_lines wellFormed, List.map_map]
  simp [Function.comp_def]

theorem HoldsLines.text_removeImport {front back : List Import} {d : Import}
    (h : HoldsLines l (front ++ d :: back) f) :
    (f.removeImport (placedBehind front d)).text.toList = linesText (front ++ back) := by
  simp only [removeImport, removeStatement, replaceSpan, h.toList_text, String.toList_ofList]
  exact splice_wholeLines front d back

theorem HoldsLines.text_replaceImport {front back new : List Import} {d : Import}
    (h : HoldsLines l (front ++ d :: back) f) (some : new ≠ [])
    (wellFormed : ∀ d ∈ new, d.normal.WellFormed) :
    (f.replaceImport (placedBehind front d) new).text.toList =
      linesText (front ++ new.map (·.normal) ++ back) := by
  have written := linesText_normal new wellFormed
  have some : new.map (·.normal) ≠ [] := by simpa using some
  simp only [placedBehind, spanBehind, replaceImport, replaceSpan, h.toList_text, h.lineEnd,
    String.toList_ofList, written, linesText_split, byteSize_append, splice_append]
  rw [linesBefore_append _ some, linesText_append (by simp [some])]

theorem HoldsLines.text_addImport {front : List Import} {last d : Import}
    (h : HoldsLines l (front ++ [last]) f) (wellFormed : d.normal.WellFormed)
    (added : f.addImport d = .ok f') :
    f'.path = f.path ∧ f'.text.toList = linesText (front ++ [last] ++ [d.normal]) := by
  have behind : (placed 0 (front ++ [last])).getLast? = some (placedBehind front last) := by
    rw [List.getLast?_eq_getElem?, length_placed, ← h.placed_getElem?]
    simp
  simp only [addImport, outline_of_read h.read, bind, Except.bind, behind] at added
  cases added
  have text : linesText (front ++ [last]) = linesBefore front ++ statementText last := by
    simp [linesText_split, linesBehind]
  have written : d.render.toList = statementText d.normal := by
    rw [← render_toList wellFormed.spelled, Import.normal_render]
  have lines : linesText (front ++ [last] ++ [d.normal]) =
      linesText (front ++ [last]) ++ '\n' :: statementText d.normal := by
    rw [← linesText_append (by simp)]
    simp [linesBehind]
  have spliced := splice_append (linesBefore front ++ statementText last) [] []
    ('\n' :: statementText d.normal)
  refine ⟨rfl, ?_⟩
  simp only [lines, replaceSpan, h.toList_text, h.lineEnd, String.toList_ofList,
    String.toList_append, written, text]
  simpa [placedBehind, spanBehind] using spliced

/-- An edit of import lines leaves the lines of the edited imports. -/
theorem HoldsLines.edited (h : HoldsLines l ds f) (hr : f.read = .ok (some o))
    (w : e.Writable l ds.length) (he : e.file f o = .ok f') :
    HoldsLines l (e.normal.imports ds) f' := by
  obtain rfl : { imports := placed 0 ds } = o := by simpa [h.read] using hr
  have split {i : Nat} (hi : i < ds.length) :
      ∃ front d back, ds = front ++ d :: back ∧ front.length = i := by
    obtain ⟨front, back, split⟩ := split_of_getElem? (List.getElem?_eq_getElem hi)
    exact ⟨front, ds[i], back, split⟩
  cases e with
  | remove i =>
    obtain ⟨front, d, back, rfl, rfl⟩ := split w.fits
    simp only [Edit.file, h.placed_getElem?, Option.map_some, Option.getD_some] at he
    cases he
    have text := h.text_removeImport
    exact holdsLines_of_text h w rfl (by simpa [Edit.normal, Edit.imports] using text)
  | replace i new =>
    obtain ⟨front, d, back, rfl, rfl⟩ := split w.fits.1
    simp only [Edit.file, h.placed_getElem?, Option.map_some, Option.getD_some] at he
    cases he
    have text := h.text_replaceImport w.fits.2 w.wellFormed
    exact holdsLines_of_text h w rfl (by simpa [Edit.normal, Edit.imports] using text)
  | add d =>
    obtain ⟨front, last, rfl⟩ := ds.eq_nil_or_concat.resolve_left
      (List.ne_nil_of_length_pos w.fits)
    rw [List.concat_eq_append] at h w he ⊢
    obtain ⟨path, text⟩ := h.text_addImport (w.wellFormed d (by simp [Edit.new])) he
    exact holdsLines_of_text h w path text

theorem mem_placed {offset : Nat} {ds : List Import} {d : Import} (h : d ∈ placed offset ds) :
    ∃ d' ∈ ds, unplaced d = unplaced d' := by
  have there := List.mem_map_of_mem (f := unplaced) h
  rw [unplaced_placed, List.mem_map] at there
  exact there.imp fun d' hd => ⟨hd.1, hd.2.symm⟩

theorem wellFormed_of_placed {offset : Nat} {ds : List Import} (h : ∀ d ∈ ds, d.WellFormed) :
    ∀ d ∈ placed offset ds, d.WellFormed := by
  intro d hd
  obtain ⟨d', hd', same⟩ := mem_placed hd
  have wf := h d' hd'
  have there : (unplaced d).WellFormed := by
    rw [same]
    exact { wf with }
  exact { there with }

theorem untyped_of_placed {offset : Nat} {ds : List Import} (h : ∀ d ∈ ds, d.Untyped) :
    ∀ d ∈ placed offset ds, d.Untyped := by
  intro d hd
  obtain ⟨d', hd', same⟩ := mem_placed hd
  have there : (unplaced d).Untyped := by
    rw [same]
    exact h d' hd'
  exact there

/-- A declaration that is read is well-formed. -/
theorem of_placed_getElem? {i : Nat} {d : Import} (wf : ∀ d ∈ ds, d.WellFormed)
    (typed : l.typed = true ∨ ∀ d ∈ ds, d.Untyped) (hd : (placed 0 ds)[i]? = some d) :
    i < ds.length ∧ d.WellFormed ∧ (l.typed = true ∨ d.Untyped) := by
  have there := List.mem_of_getElem? hd
  have inside := (List.getElem?_eq_some_iff.mp hd).1
  rw [length_placed] at inside
  exact ⟨inside, wellFormed_of_placed wf d there,
    typed.imp_right fun untyped => untyped_of_placed untyped d there⟩

theorem map_normal_placed (offset : Nat) (ds : List Import) :
    (placed offset ds).map (·.normal) = ds.map (·.normal) := by
  induction ds generalizing offset with
  | nil => rfl
  | cons d rest ih =>
    simp only [placed, List.map_cons, ih]
    rfl

theorem take_placed (offset i : Nat) (ds : List Import) :
    (placed offset ds).take i = placed offset (ds.take i) := by
  induction ds generalizing offset i with
  | nil => simp [placed]
  | cons d rest ih => cases i <;> simp [placed, ih]

theorem placed_prefix (offset : Nat) (front back : List Import) :
    placed offset front <+: placed offset (front ++ back) := by
  induction front generalizing offset with
  | nil => exact List.nil_prefix
  | cons d front ih => simpa [placed] using ih _

/-- **Import lines are reread.** -/
theorem HoldsLines.reread (h : HoldsLines l ds f) (hr : f.read = .ok (some o))
    (w : e.Writable l ds.length) (he : e.file f o = .ok f') {files : SourceFile → Prop}
    (hf : files f') : ReadAs files (e.front o.imports) (e.imports o.imports) f' := by
  refine ⟨hf, _, (h.edited hr w he).read, ?_, ?_⟩
  all_goals
    obtain rfl : { imports := placed 0 ds } = o := by simpa [h.read] using hr
  · rw [map_normal_placed]
    cases e with
    | remove i => simp [Edit.normal, Edit.imports, List.map_take, List.map_drop, map_normal_placed]
    | replace i new =>
      simp [Edit.normal, Edit.imports, List.map_take, List.map_drop, map_normal_placed,
        Function.comp_def]
    | add d => simp [Edit.normal, Edit.imports, map_normal_placed]
  · cases e with
    | remove i =>
      simpa [Edit.front, Edit.normal, Edit.imports, take_placed] using
        placed_prefix 0 (ds.take i) (ds.drop (i + 1))
    | replace i new =>
      simpa [Edit.front, Edit.normal, Edit.imports, take_placed] using placed_prefix 0 (ds.take i) _
    | add d => exact placed_prefix 0 ds [d.normal]

end SourceFile

end ModuleRepair
