import ModuleRepair.Proofs.Diagnostic.Edited

/-!
# When a fix applies

The imports of a module call for a fix or not. Only where a binding is to become the default one
does another module have a say.
-/
namespace ModuleRepair.Repairs

open ModuleRepair.Script ModuleRepair.SourceFile

/-- Whether a fix changes a module. -/
def Applies (r : Repairs) (p : Project) (f : SourceFile) (fix : Fix) : Prop :=
  ∃ repaired, r.apply p f fix = .ok (some repaired)

/-- What calls for a fix. -/
inductive Calls (r : Repairs) (p : Project) (f : SourceFile) (o : Outline) : Fix → Prop
  | byName {name specifier : String} {d : Import} :
      d ∈ o.imports → d.defaultName.isSome = true → Leads p.root d.specifier specifier →
      Calls r p f o (.importByName name specifier)
  /-- The first binding of the name has room for a default binding, and the module it comes from
  does not speak against it. -/
  | byDefault {name specifier : String} {d : Import} :
      findImport? p.root o specifier (fun d => d.named.any (·.localName = name)) = some d →
      given d.defaultName = none →
      (∀ target, p.resolve? f.path d.specifier = some target →
        offersByNameOnly target name = .ok false) →
      Calls r p f o (.importDefault name specifier)
  | added {name : String} :
      name ∉ namesOf o.imports → (r.offered? f.specifier? name).isSome = true →
      Calls r p f o (.addImport name)
  | corrected {specifier collapsed : String} {d : Import} :
      p.root.collapse? specifier = some collapsed → d ∈ o.imports → d.specifier = specifier →
      Calls r p f o (.correctPath specifier)

variable {r : Repairs} {p : Project} {f : SourceFile} {o : Outline} {name specifier : String}

theorem findImport?_eq_none {root : AliasRoot} {q : Import → Bool} :
    findImport? root o specifier q = none ↔
      ∀ d ∈ o.imports, q d = true → ¬Leads root d.specifier specifier := by
  simp only [findImport?, Option.or_eq_none_iff, List.find?_eq_none, Bool.and_eq_true,
    decide_eq_true_eq, Leads, not_and, not_or]
  constructor
  · rintro ⟨exact, path⟩ d hd fits
    exact ⟨fun same => exact d hd same fits, fun same => path d hd same fits⟩
  · intro none
    exact ⟨fun d hd same fits => (none d hd fits).1 same,
      fun d hd same fits => (none d hd fits).2 same⟩

theorem applies_importByName (hr : f.read = .ok (some o)) :
    r.Applies p f (.importByName name specifier) ↔
      Calls r p f o (.importByName name specifier) := by
  simp only [Applies, apply, importByName, outline_of_read hr, bind, Except.bind]
  cases found : findImport? p.root o specifier fun d => d.defaultName.isSome with
  | none =>
    constructor
    · rintro ⟨_, applied⟩
      cases applied
    · intro calls
      cases calls with
      | byName hd isSome leads => exact absurd leads (findImport?_eq_none.mp found _ hd isSome)
  | some d =>
    obtain ⟨hd, leads, isSome⟩ := findImport?_eq_some found
    exact ⟨fun _ => .byName hd isSome leads, fun _ => ⟨_, rfl⟩⟩

theorem applies_importDefault (hr : f.read = .ok (some o)) :
    r.Applies p f (.importDefault name specifier) ↔
      Calls r p f o (.importDefault name specifier) := by
  simp only [Applies, apply, importDefault, outline_of_read hr, bind, Except.bind]
  cases found : findImport? p.root o specifier fun d => d.named.any (·.localName = name) with
  | none =>
    constructor
    · rintro ⟨_, applied⟩
      cases applied
    · intro calls
      cases calls with
      | byDefault found' => rw [found] at found'; cases found'
  | some d =>
    have free : (d.namedToDefault? name).isSome = true ↔ given d.defaultName = none := by
      rw [Import.namedToDefault?_isSome_iff, and_iff_left (findImport?_eq_some found).2.2]
    have calls : Calls r p f o (.importDefault name specifier) ↔ given d.defaultName = none ∧
        ∀ target, p.resolve? f.path d.specifier = some target →
          offersByNameOnly target name = .ok false := by
      constructor
      · intro calls
        cases calls with
        | byDefault found' noDefault agreed =>
          obtain rfl := Option.some.inj (found.symm.trans found')
          exact ⟨noDefault, agreed⟩
      · rintro ⟨noDefault, agreed⟩
        exact .byDefault found noDefault agreed
    have converts (text : String) : (∃ repaired, Except.ok (ε := LanguageError)
        ((d.namedToDefault? name).map fun new => (f.replaceImport d [new], text)) =
          .ok (some repaired)) ↔ given d.defaultName = none := by
      rw [← free]
      cases d.namedToDefault? name <;> simp
    rw [calls]
    dsimp only
    cases resolved : p.resolve? f.path d.specifier with
    | none =>
      rw [and_iff_left (by simp)]
      exact converts _
    | some target =>
      dsimp only
      cases offers : offersByNameOnly target name with
      | error e => simp [offers]
      | ok outdated =>
        cases outdated with
        | true => simp [offers, pure, Except.pure]
        | false =>
          rw [and_iff_left (by simp [offers])]
          exact converts _

/-- What is offered for a missing name is added. -/
theorem addImport_of_offered (ho : f.outline = .ok o) (missing : name ∉ namesOf o.imports)
    (offered : r.offered? f.specifier? name = some d) :
    ∃ repaired, r.addImport f name = .ok (some repaired) := by
  have adds (specifier : String) (isDefault : Bool) :
      ∃ repaired, addImportOf f name specifier isDefault = .ok (some repaired) := by
    obtain ⟨g, added⟩ := exists_addImport ho (importOf name specifier isDefault)
    unfold addImportOf
    rw [importOf] at added
    exact ⟨_, by simp only [added, bind, Except.bind]; rfl⟩
  have imported : o.importedNames.contains name = false :=
    Bool.eq_false_iff.mpr fun there => missing (List.contains_iff_mem.mp there)
  simp only [addImport, ho, bind, Except.bind, imported]
  unfold offered? at offered
  cases special : r.special.lookup name with
  | some s => exact adds s.specifier s.isDefault
  | none =>
    rw [special] at offered
    obtain ⟨e, entry, -⟩ := Option.map_eq_some_iff.mp offered
    obtain ⟨entry, other⟩ := Option.filter_eq_some_iff.mp entry
    rw [decide_eq_true_eq] at other
    simp only [entry]
    rw [if_neg Bool.false_ne_true, if_neg other]
    exact adds e.specifier e.isDefault

theorem applies_addImport (hr : f.read = .ok (some o)) :
    r.Applies p f (.addImport name) ↔ Calls r p f o (.addImport name) := by
  constructor
  · rintro ⟨⟨f', text⟩, applied⟩
    obtain ⟨o', d, ho, missing, offered, -⟩ := addImport_offers applied
    obtain rfl : o = o' := Except.ok.inj ((outline_of_read hr).symm.trans ho)
    exact .added missing (by rw [offered]; rfl)
  · intro calls
    cases calls with
    | added missing offered =>
      obtain ⟨d, offered⟩ := Option.isSome_iff_exists.mp offered
      exact addImport_of_offered (outline_of_read hr) missing offered

/-- Correcting specifiers never fails. -/
theorem replaceSpecifier_eq_ok (ho : f.outline = .ok o) (old new : String) (n : Nat) :
    ∃ g count, replaceSpecifier old new n f = .ok (g, count) := by
  induction n generalizing f o with
  | zero => exact ⟨f, 0, rfl⟩
  | succ n ih =>
    simp only [replaceSpecifier, ho, bind, Except.bind]
    split
    · exact ⟨f, 0, rfl⟩
    · next d found =>
      obtain ⟨l, language⟩ := language_of_outline ho
      have ho' := outline_eq_ok (f := f.replaceImport d [{ d with specifier := new }]) language
      obtain ⟨g, count, replaced⟩ := ih ho'
      exact ⟨g, count + 1, by simp only [replaced]; rfl⟩

theorem applies_correctPath (hr : f.read = .ok (some o)) :
    r.Applies p f (.correctPath specifier) ↔ Calls r p f o (.correctPath specifier) := by
  have ho := outline_of_read hr
  simp only [Applies, apply, correctPath, ho, bind, Except.bind]
  cases collapsed : p.root.collapse? specifier with
  | none =>
    constructor
    · rintro ⟨_, applied⟩
      cases applied
    · intro calls
      cases calls with
      | corrected collapsed' => rw [collapsed] at collapsed'; cases collapsed'
  | some new =>
    have calls : Calls r p f o (.correctPath specifier) ↔
        ∃ d ∈ o.imports, d.specifier = specifier := by
      constructor
      · intro calls
        cases calls with
        | corrected _ hd same => exact ⟨_, hd, same⟩
      · rintro ⟨d, hd, same⟩
        exact .corrected collapsed hd same
    rw [calls]
    dsimp only
    cases found : o.imports.find? (·.specifier = specifier) with
    | none =>
      have untouched (n : Nat) : replaceSpecifier specifier new n f = .ok (f, 0) := by
        cases n with
        | zero => rfl
        | succ n => simp only [replaceSpecifier, ho, bind, Except.bind, found]; rfl
      simpa [untouched, pure, Except.pure] using List.find?_eq_none.mp found
    | some d =>
      have hd := List.mem_of_find?_eq_some found
      have same : d.specifier = specifier := by simpa using List.find?_some found
      obtain ⟨n, length⟩ : ∃ n, o.imports.length = n + 1 :=
        Nat.exists_eq_add_one.mpr (List.length_pos_of_mem hd)
      obtain ⟨l, language⟩ := language_of_outline ho
      have ho' := outline_eq_ok (f := f.replaceImport d [{ d with specifier := new }]) language
      obtain ⟨g, count, replaced⟩ := replaceSpecifier_eq_ok ho' specifier new n
      have counted : replaceSpecifier specifier new o.imports.length f = .ok (g, count + 1) := by
        rw [length]
        simp only [replaceSpecifier, ho, bind, Except.bind, found, replaced]
        rfl
      simp only [counted]
      exact ⟨fun _ => ⟨d, hd, same⟩, fun _ => ⟨_, rfl⟩⟩

/-- A fix applies exactly where something calls for it. -/
theorem applies_iff (hr : f.read = .ok (some o)) {fix : Fix} :
    r.Applies p f fix ↔ Calls r p f o fix := by
  cases fix with
  | importByName name specifier => exact applies_importByName hr
  | importDefault name specifier => exact applies_importDefault hr
  | addImport name => exact applies_addImport hr
  | correctPath specifier => exact applies_correctPath hr

end ModuleRepair.Repairs
