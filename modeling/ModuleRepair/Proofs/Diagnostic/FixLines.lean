import ModuleRepair.Proofs.Diagnostic.Convert
import ModuleRepair.Proofs.SourceFile.ImportLines

/-!
# The edits of fixes

Every fix replaces one import, or adds one. Among import lines, fixes of plain names write what can
be read back (`repairing_rereads`).
-/
namespace ModuleRepair.Repairs

open ModuleRepair.Script ModuleRepair.SourceFile

/-- The edits of fixes in a module of a given specifier. -/
inductive Repairing (r : Repairs) (root : AliasRoot) (own : Option String) (fixes : List Fix)
    (ds : List Import) : Edit → Prop
  | byName {name specifier : String} {i : Nat} {d : Import} :
      .importByName name specifier ∈ fixes → ds[i]? = some d → d.defaultName.isSome = true →
      Leads root d.specifier specifier →
      Repairing r root own fixes ds (.replace i (bindByName d name))
  | byDefault {name specifier : String} {i : Nat} {d new : Import} :
      .importDefault name specifier ∈ fixes → ds[i]? = some d → Leads root d.specifier specifier →
      d.namedToDefault? name = some new → Repairing r root own fixes ds (.replace i [new])
  | added {name : String} {d : Import} :
      .addImport name ∈ fixes → name ∉ namesOf ds → r.offered? own name = some d →
      Repairing r root own fixes ds (.add d)
  | corrected {specifier collapsed : String} {i : Nat} {d : Import} :
      .correctPath specifier ∈ fixes → root.collapse? specifier = some collapsed →
      ds[i]? = some d → d.specifier = specifier →
      Repairing r root own fixes ds (.replace i [{ d with specifier := collapsed }])

/-- Fixes that bring plain names and specifiers only. -/
structure PlainFixes (r : Repairs) (root : AliasRoot) (own : Option String) (fixes : List Fix) :
    Prop where
  byName : ∀ name specifier, .importByName name specifier ∈ fixes → isPlainName name = true
  added : ∀ name d, .addImport name ∈ fixes → r.offered? own name = some d →
    d.WellFormed ∧ d.Untyped
  corrected : ∀ specifier collapsed, .correctPath specifier ∈ fixes →
    root.collapse? specifier = some collapsed →
    ∀ c ∈ collapsed.toList, c ≠ '"' ∧ c ≠ '\x27' ∧ c ≠ '\\' ∧ c ≠ '\n' ∧ c ≠ '\r'

variable {r : Repairs} {root : AliasRoot} {own : Option String} {fixes : List Fix} {d : Import}
  {name : String}

theorem mem_bindings_defaultToNamed {b : Binding} (h : b ∈ (d.defaultToNamed name).bindings) :
    b ∈ d.bindings ∨ b = d.bindNamed
      ⟨name, (given (some ((given d.defaultName).getD name))).filter (· ≠ name), false⟩ := by
  simp only [Import.defaultToNamed, Import.withNamed, Import.bindings, given_none, List.mem_append,
    List.mem_map, Option.toList_none, List.not_mem_nil, false_and, exists_false, or_false] at h ⊢
  rcases h with ⟨b, hb, rfl⟩ | h
  · rcases List.mem_append.mp (mem_of_mem_sortNamed hb) with hb | hb
    · exact .inl (.inl (.inl ⟨b, hb, rfl⟩))
    · exact .inr (List.mem_singleton.mp hb ▸ rfl)
  · exact .inl (.inr h)

theorem defaultToNamed_wellFormed (fit : d.QuotesFit) (attributes : given d.attributes = none)
    (bindings : ∀ b ∈ d.bindings, b.Plain) (plain : isPlainName name = true)
    (noNamespace : given d.namespaceName = none) : (d.defaultToNamed name).normal.WellFormed := by
  refine Import.normal_wellFormed fit (.inl noNamespace) attributes fun b hb => ?_
  rcases mem_bindings_defaultToNamed hb with hb | rfl
  · exact bindings b hb
  · have local_plain : isPlainName ((given d.defaultName).getD name) = true := by
      cases hd : given d.defaultName with
      | none => exact plain
      | some x => exact (bindings (d.bindDefault x) (by simp [Import.bindings, hd])).1
    refine ⟨?_, fun _ => plain⟩
    change isPlainName (NamedImport.localName
      (NamedImport.normal ⟨name, some ((given d.defaultName).getD name), false⟩)) = true
    rw [NamedImport.normal_localName, NamedImport.localName,
      given_some (ne_empty_of_plain local_plain)]
    exact local_plain

theorem defaultToNamed_untyped (untyped : d.Untyped) : (d.defaultToNamed name).normal.Untyped := by
  refine Import.normal_untyped untyped.1 fun b hb => ?_
  rcases mem_bindings_defaultToNamed hb with hb | rfl
  · exact untyped.bindings_isType b hb
  · rfl

theorem bindByName_wellFormed (wf : d.WellFormed) (plain : isPlainName name = true) :
    ∀ e ∈ bindByName d name, e.normal.WellFormed := by
  have attributes : given d.attributes = none := by rw [wf.attributes, given_none]
  unfold bindByName
  split
  · next hasNamespace =>
    have named : d.named = [] := wf.clause.resolve_left fun none => by
      simp [none, given_none] at hasNamespace
    have front : ∀ b ∈ ({ d with defaultName := none } : Import).bindings, b ∈ d.bindings := by
      intro b hb
      simp only [Import.bindings, List.mem_append] at hb ⊢
      exact hb.imp_left (Or.imp_right fun absent => by simp [given_none] at absent)
    have behind : ∀ b ∈ ({ d with namespaceName := none } : Import).bindings, b ∈ d.bindings := by
      intro b hb
      simp only [Import.bindings, List.mem_append] at hb ⊢
      exact hb.imp_right fun absent => by simp [given_none] at absent
    simp only [List.mem_cons, List.not_mem_nil, or_false, forall_eq_or_imp, forall_eq]
    refine ⟨?_, ?_⟩
    · exact Import.normal_wellFormed wf.quotesFit (.inr named) attributes fun b hb =>
        wf.bindings_plain b (front b hb)
    · exact defaultToNamed_wellFormed wf.quotesFit attributes (fun b hb =>
        wf.bindings_plain b (behind b hb)) plain given_none
  · next noNamespace =>
    simpa using defaultToNamed_wellFormed wf.quotesFit attributes wf.bindings_plain plain
      (by simpa using noNamespace)

theorem bindByName_untyped (untyped : d.Untyped) :
    ∀ e ∈ bindByName d name, e.normal.Untyped := by
  unfold bindByName
  split
  · simp only [List.mem_cons, List.not_mem_nil, or_false, forall_eq_or_imp, forall_eq]
    refine ⟨Import.normal_untyped untyped.1 fun b hb => ?_, defaultToNamed_untyped untyped⟩
    exact Import.Untyped.bindings_isType (d := { d with defaultName := none }) untyped b hb
  · simpa using defaultToNamed_untyped untyped

theorem mem_bindings_namedToDefault? {new : Import} (h : d.namedToDefault? name = some new)
    {b : Binding} (hb : b ∈ new.bindings) :
    b ∈ d.bindings ∨ ∃ n ∈ d.named, b = d.bindDefault n.localName := by
  obtain ⟨-, front, n, back, split, rfl, -, rfl⟩ := Import.namedToDefault?_eq_some h
  simp only [Import.bindings, List.mem_append, List.mem_map, Option.mem_toList, split] at hb ⊢
  rcases hb with (⟨m, hm, rfl⟩ | ⟨x, hx, rfl⟩) | ⟨x, hx, rfl⟩
  · exact .inl (.inl (.inl ⟨m, hm.imp_right (List.mem_cons_of_mem n), rfl⟩))
  · refine .inr ⟨n, .inr List.mem_cons_self, ?_⟩
    have same := (Option.filter_eq_some_iff.mp hx).1
    cases same
    rfl
  · exact .inl (.inr ⟨x, hx, rfl⟩)

theorem namedToDefault?_wellFormed (wf : d.WellFormed) {new : Import}
    (h : d.namedToDefault? name = some new) : new.normal.WellFormed := by
  have bindings : ∀ b ∈ new.bindings, b.Plain := by
    intro b hb
    rcases mem_bindings_namedToDefault? h hb with hb | ⟨n, hn, rfl⟩
    · exact wf.bindings_plain b hb
    · have plain := wf.bindings_plain (d.bindNamed n) (by
        simp only [Import.bindings, List.mem_append]
        exact .inl (.inl (List.mem_map_of_mem hn)))
      exact ⟨plain.1, fun kind => by cases kind⟩
  obtain ⟨-, front, n, back, split, -, -, rfl⟩ := Import.namedToDefault?_eq_some h
  refine Import.normal_wellFormed wf.quotesFit ?_ (by rw [← given_none, ← wf.attributes]) bindings
  refine wf.clause.imp (fun none => by simp [none, given_none]) fun none => ?_
  simp [none] at split

theorem namedToDefault?_untyped (untyped : d.Untyped) {new : Import}
    (h : d.namedToDefault? name = some new) : new.normal.Untyped := by
  have typeOnly : new.typeOnly = d.typeOnly := by
    obtain ⟨-, front, n, back, -, -, -, rfl⟩ := Import.namedToDefault?_eq_some h
    rfl
  refine Import.normal_untyped (typeOnly.trans untyped.1) fun b hb => ?_
  rcases mem_bindings_namedToDefault? h hb with hb | ⟨n, -, rfl⟩
  · exact untyped.bindings_isType b hb
  · rfl

theorem mem_bindings_withSpecifier {specifier : String} {b : Binding}
    (h : b ∈ ({ d with specifier } : Import).bindings) :
    ∃ b' ∈ d.bindings, b = { b' with specifier } := by
  rw [Import.bindings_withSpecifier] at h
  obtain ⟨b', hb, rfl⟩ := List.mem_map.mp h
  exact ⟨b', hb, rfl⟩

theorem withSpecifier_wellFormed (wf : d.WellFormed) {specifier : String}
    (fit : ∀ c ∈ specifier.toList, c ≠ '"' ∧ c ≠ '\x27' ∧ c ≠ '\\' ∧ c ≠ '\n' ∧ c ≠ '\r') :
    ({ d with specifier } : Import).normal.WellFormed := by
  have quotes : ({ d with specifier } : Import).QuotesFit := by
    refine ⟨wf.quote, fun c hc => ?_⟩
    obtain ⟨double, single, rest⟩ := fit c hc
    refine ⟨?_, rest⟩
    rcases wf.quote with quote | quote <;> simp [quote, double, single]
  refine Import.normal_wellFormed quotes
    (wf.clause.imp_left fun none => by rw [← given_none, ← none])
    (by rw [← given_none, ← wf.attributes]) fun b hb => ?_
  obtain ⟨b', hb', rfl⟩ := mem_bindings_withSpecifier hb
  exact wf.bindings_plain b' hb'

/-- Among import lines, fixes of plain names write what can be read back. -/
theorem repairing_writable {l : Language} {ds : List Import} {e : Edit}
    (plain : PlainFixes r root own fixes) (some : ds ≠ []) (wf : ∀ d ∈ ds, d.WellFormed)
    (typed : l.typed = true ∨ ∀ d ∈ ds, d.Untyped)
    (he : Repairing r root own fixes (placed 0 ds) e) : e.Writable l ds.length := by
  cases he with
  | byName there hd isSome leads =>
    obtain ⟨inside, wf, typed⟩ := SourceFile.of_placed_getElem? wf typed hd
    refine ⟨⟨inside, ?_⟩, bindByName_wellFormed wf (plain.byName _ _ there),
      typed.imp_right fun untyped => bindByName_untyped untyped⟩
    unfold bindByName
    split <;> simp
  | byDefault there hd leads new =>
    obtain ⟨inside, wf, typed⟩ := SourceFile.of_placed_getElem? wf typed hd
    exact .replaceOne inside (namedToDefault?_wellFormed wf new)
      (typed.imp_right fun untyped => namedToDefault?_untyped untyped new)
  | added there fresh offered =>
    have good := plain.added _ _ there offered
    refine ⟨List.length_pos_iff.mpr some, ?_, .inr ?_⟩
    · simpa [Edit.new] using good.1.normal
    · simpa [Edit.new] using Import.normal_untyped good.2.1 good.2.bindings_isType
  | @corrected specifier collapsed i d there found hd same =>
    obtain ⟨inside, wf, typed⟩ := SourceFile.of_placed_getElem? wf typed hd
    refine .replaceOne inside
      (withSpecifier_wellFormed wf (plain.corrected specifier collapsed there found))
      (typed.imp_right fun untyped => Import.normal_untyped untyped.1 fun b hb => ?_)
    obtain ⟨b', hb', rfl⟩ := mem_bindings_withSpecifier hb
    exact untyped.bindings_isType b' hb'

/-- Import lines can be fixed without any assumption. -/
theorem repairing_rereads {l : Language} (plain : PlainFixes r root own fixes) :
    Rereads (Repairing r root own fixes) fun f => ∃ ds, ds ≠ [] ∧ HoldsLines l ds f := by
  rintro f o e f' ⟨ds, some, h⟩ hr allowed he
  obtain rfl : { imports := placed 0 ds } = o := by simpa [h.read] using hr
  have writable := repairing_writable plain some h.wellFormed h.typed allowed
  refine h.reread hr writable he ⟨_, ?_, h.edited hr writable he⟩
  cases e with
  | remove i => cases allowed
  | replace i new => simp [Edit.normal, Edit.imports, writable.fits.2]
  | add d => simp [Edit.normal, Edit.imports]

end ModuleRepair.Repairs
