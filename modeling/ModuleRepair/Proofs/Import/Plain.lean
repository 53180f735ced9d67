import ModuleRepair.Proofs.Import.Binding
import ModuleRepair.Proofs.Script.RoundTrip

/-!
# Plain bindings

A well-formed declaration is read back as it is. What makes a declaration well-formed, apart from
its specifier, are the names that it binds.
-/
namespace ModuleRepair

open ModuleRepair.Script

theorem NamedImport.WellFormed.normal_eq {b : NamedImport} (h : b.WellFormed) : b.normal = b := by
  obtain ⟨name, renamed, isType⟩ := b
  cases renamed with
  | none => rfl
  | some a =>
    obtain ⟨plain, other⟩ := h.renamed a rfl
    have there : given (some a) = some a := given_some (ne_empty_of_plain plain)
    simp [NamedImport.normal, there, Option.filter_some, other]

/-- A well-formed declaration is read back as it is. -/
theorem Import.WellFormed.normal_eq {d : Import} (h : d.WellFormed) : d.normal = unplaced d := by
  have quote : d.quote ≠ "" := by rcases h.quote with hq | hq <;> rw [hq] <;> decide
  have named : d.named.map (·.normal) = d.named := by
    conv => rhs; rw [← List.map_id d.named]
    exact List.map_congr_left fun b hb => (h.named b hb).normal_eq
  have typeOnly : (d.typeOnly && !d.isSideEffect) = d.typeOnly := by
    cases ht : d.typeOnly with
    | false => rfl
    | true =>
      have binds := h.typeOnly ht
      simpa [← Import.isSideEffect_iff] using binds
  simp only [Import.normal, unplaced, given_of_plain h.defaultName, given_of_plain h.namespaceName,
    named, typeOnly, if_neg quote]
  simp [h.attributes, given_none]

/-- A binding of plain names. -/
def Binding.Plain (b : Binding) : Prop :=
  isPlainName b.localName = true ∧ (b.kind = .namedExport → isPlainName b.exported = true)

/-- A specifier that can stand between the quotes of a declaration. -/
def Import.QuotesFit (d : Import) : Prop :=
  (d.quote = "\"" ∨ d.quote = "\x27") ∧
    ∀ c ∈ d.specifier.toList, c ∉ d.quote.toList ∧ c ≠ '\\' ∧ c ≠ '\n' ∧ c ≠ '\r'

theorem Import.WellFormed.bindings_plain {d : Import} (h : d.WellFormed) :
    ∀ b ∈ d.bindings, b.Plain := by
  simp only [bindings, List.mem_append, List.mem_map, Option.mem_toList,
    given_of_plain h.defaultName, given_of_plain h.namespaceName]
  rintro _ ((⟨b, hb, rfl⟩ | ⟨name, there, rfl⟩) | ⟨name, there, rfl⟩)
  · have wf := h.named b hb
    refine ⟨?_, fun _ => wf.name⟩
    change isPlainName ((given b.renamed).getD b.name) = true
    cases renamed : b.renamed with
    | none => exact wf.name
    | some a =>
      have plain := (wf.renamed a renamed).1
      rw [given_some (ne_empty_of_plain plain)]
      exact plain
  · exact ⟨h.defaultName name there, fun kind => by cases kind⟩
  · exact ⟨h.namespaceName name there, fun kind => by cases kind⟩

theorem Import.WellFormed.quotesFit {d : Import} (h : d.WellFormed) : d.QuotesFit :=
  ⟨h.quote, h.specifier⟩

theorem Import.Untyped.bindings_isType {d : Import} (h : d.Untyped) :
    ∀ b ∈ d.bindings, b.isType = false := by
  simp only [bindings, List.mem_append, List.mem_map]
  rintro _ ((⟨b, hb, rfl⟩ | ⟨name, -, rfl⟩) | ⟨name, -, rfl⟩)
  · exact h.2 b hb
  · rfl
  · rfl

theorem Import.normal_untyped {d : Import} (typeOnly : d.typeOnly = false)
    (h : ∀ b ∈ d.bindings, b.isType = false) : d.normal.Untyped := by
  refine ⟨by simp [normal, typeOnly], fun b hb => ?_⟩
  obtain ⟨b, there, rfl⟩ := List.mem_map.mp hb
  refine h (d.bindNamed b) ?_
  simp only [bindings, List.mem_append, List.mem_map]
  exact .inl (.inl ⟨b, there, rfl⟩)

/-- A declaration that binds plain names only is read back as a well-formed one. -/
theorem Import.normal_wellFormed {d : Import} (fit : d.QuotesFit)
    (clause : given d.namespaceName = none ∨ d.named = []) (attributes : given d.attributes = none)
    (plain : ∀ b ∈ d.bindings, b.Plain) : d.normal.WellFormed := by
  have quote : d.normal.quote = d.quote := by
    rcases fit.1 with hq | hq <;> simp [normal, hq]
  simp only [bindings, List.mem_append, List.mem_map, Option.mem_toList] at plain
  refine ⟨by rw [quote]; exact fit.1, by rw [quote]; exact fit.2, ?_, ?_, ?_, ?_, ?_, attributes⟩
  · intro name there
    exact (plain _ (.inl (.inr ⟨name, there, rfl⟩))).1
  · intro name there
    exact (plain _ (.inr ⟨name, there, rfl⟩)).1
  · intro b hb
    obtain ⟨b, there, rfl⟩ := List.mem_map.mp hb
    obtain ⟨localName, name⟩ := plain _ (.inl (.inl ⟨b, there, rfl⟩))
    refine ⟨name rfl, fun a ha => ?_⟩
    have given : given b.renamed = some a ∧ a ≠ b.name := by
      simpa [NamedImport.normal, Option.filter_eq_some_iff] using ha
    refine ⟨?_, given.2⟩
    simpa [bindNamed, NamedImport.localName, given.1] using localName
  · exact clause.imp_right fun none => by simp [normal, none]
  · intro typeOnly
    have binds : d.isSideEffect = false := by
      simp only [normal, Bool.and_eq_true, Bool.not_eq_true'] at typeOnly
      exact typeOnly.2
    rw [← normal_isSideEffect] at binds
    intro none
    rw [(isSideEffect_iff _).mpr none] at binds
    cases binds

theorem Import.WellFormed.normal {d : Import} (h : d.WellFormed) : d.normal.WellFormed :=
  Import.normal_wellFormed h.quotesFit (h.clause.imp_left fun none => by rw [none, given_none])
    (by rw [h.attributes, given_none]) h.bindings_plain

end ModuleRepair
