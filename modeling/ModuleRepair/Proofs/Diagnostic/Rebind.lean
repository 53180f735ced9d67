import ModuleRepair.Diagnostic.Repair
import ModuleRepair.Proofs.Distinct
import ModuleRepair.Proofs.Import.Binding

/-!
# What fixes do to bindings

One fix converts one binding, adds one, corrects a specifier, or changes nothing (`Rebinds`). Along
a list of fixes the names that are imported stay distinct, and only missing names are added
(`RebindsAll.names`).
-/
namespace ModuleRepair

/-- A binding with one specifier replaced by another one. -/
def Binding.correct (old new : String) (b : Binding) : Binding :=
  if b.specifier = old then { b with specifier := new } else b

namespace Repairs

/-- The import of one name. -/
def importOf (name specifier : String) (isDefault : Bool) : Import :=
  if isDefault then Import.fresh specifier (some name) [] else Import.fresh specifier none [name]

/-- The import that brings a missing name into a module of a given specifier: a well-known one, or
one that another module offers. -/
def offered? (r : Repairs) (own : Option String) (name : String) : Option Import :=
  match r.special.lookup name with
  | some s => some (importOf name s.specifier s.isDefault)
  | none => ((r.surface.get? name).filter (own ≠ some ·.specifier)).map fun e =>
      importOf name e.specifier e.isDefault

/-- The fixes of a file's diagnostics, those that are looked at. -/
def fixes (r : Repairs) (diagnostics : List Diagnostic) : List Fix :=
  (upTo r.limit diagnostics).filterMap fun d => Fix.classify? d.code d.message

/-- Whether a specifier is the one that a fix names, or leads to the same path. -/
def Leads (root : AliasRoot) (specifier named : String) : Prop :=
  specifier = named ∨ root.matchesPath specifier named = true

/-- What one fix does to the bindings of a module of a given specifier. -/
inductive Rebinds (r : Repairs) (root : AliasRoot) (own : Option String) :
    Fix → List Binding → List Binding → Prop
  /-- A name that is not added is imported already, or nothing offers it. -/
  | unchanged {fix : Fix} {bs bs' : List Binding} : bs'.Perm bs →
      (∀ name, fix = .addImport name →
        name ∈ bs.map (·.localName) ∨ r.offered? own name = none) →
      Rebinds r root own fix bs bs'
  /-- One default binding becomes a named one of the same local name. -/
  | byName {name specifier : String} {b : Binding} {bs bs' rest : List Binding} :
      b.kind = .defaultExport → Leads root b.specifier specifier → bs.Perm (b :: rest) →
      bs'.Perm ({ b with kind := .namedExport, exported := name } :: rest) →
      Rebinds r root own (.importByName name specifier) bs bs'
  /-- One named binding becomes a default one of the same local name. -/
  | byDefault {name specifier : String} {b : Binding} {bs bs' rest : List Binding} :
      b.kind = .namedExport → b.localName = name → Leads root b.specifier specifier →
      bs.Perm (b :: rest) →
      bs'.Perm ({ b with kind := .defaultExport, exported := "default", isType := false } :: rest) →
      Rebinds r root own (.importDefault name specifier) bs bs'
  /-- A missing name is imported from where it is offered. -/
  | added {name : String} {d : Import} {bs bs' : List Binding} :
      name ∉ bs.map (·.localName) → r.offered? own name = some d → bs'.Perm (bs ++ d.bindings) →
      Rebinds r root own (.addImport name) bs bs'
  /-- All bindings of one specifier get another one. -/
  | corrected {specifier collapsed : String} {bs bs' : List Binding} :
      root.collapse? specifier = some collapsed →
      bs'.Perm (bs.map (Binding.correct specifier collapsed)) →
      Rebinds r root own (.correctPath specifier) bs bs'

/-- What a list of fixes does to the bindings of a module, one fix after the other. -/
inductive RebindsAll (r : Repairs) (root : AliasRoot) (own : Option String) :
    List Fix → List Binding → List Binding → Prop
  | nil {bs : List Binding} : RebindsAll r root own [] bs bs
  | cons {fix : Fix} {fixes : List Fix} {bs cs ds : List Binding} :
      Rebinds r root own fix bs cs → RebindsAll r root own fixes cs ds →
      RebindsAll r root own (fix :: fixes) bs ds

/-- The names that fixes report as missing. -/
def missingNames (fixes : List Fix) : List String :=
  fixes.filterMap fun
    | .addImport name => some name
    | _ => none

/-- The names that fixes add to given ones: those that are reported as missing, not there and
offered, each once. -/
def addedNames (r : Repairs) (own : Option String) (names : List String) (fixes : List Fix) :
    List String :=
  (missingNames fixes).eraseDups.filter fun name =>
    !names.contains name && (r.offered? own name).isSome

variable {r : Repairs} {root : AliasRoot} {own : Option String} {name : String}

theorem importOf_bindings (hn : name ≠ "") (specifier : String) (isDefault : Bool) :
    (importOf name specifier isDefault).bindings.map (·.localName) = [name] := by
  rw [Import.bindings_localName]
  cases isDefault with
  | true =>
    simp [importOf, Import.fresh, Import.localNames, given_some hn, given_none, sortNamed, distinct]
  | false =>
    simp [importOf, Import.fresh, Import.localNames, given_none, sortNamed, distinct,
      NamedImport.localName]

theorem offered?_bindings (hn : name ≠ "") {d : Import} (h : r.offered? own name = some d) :
    d.bindings.map (·.localName) = [name] := by
  unfold offered? at h
  split at h
  · obtain rfl := Option.some.inj h
    exact importOf_bindings hn ..
  · obtain ⟨e, -, rfl⟩ := Option.map_eq_some_iff.mp h
    exact importOf_bindings hn ..

/-! ## Added names -/

theorem addedNames_congr {names names' : List String} (h : ∀ n, n ∈ names ↔ n ∈ names')
    (fixes : List Fix) : r.addedNames own names fixes = r.addedNames own names' fixes := by
  refine List.filter_congr fun n _ => ?_
  have same : names.contains n = names'.contains n := by
    rw [Bool.eq_iff_iff, List.contains_iff_mem, List.contains_iff_mem, h]
  rw [same]

/-- What the first fix adds is there for the others. -/
theorem addedNames_cons (names : List String) (fix : Fix) (fixes : List Fix) :
    r.addedNames own names (fix :: fixes) = r.addedNames own names [fix] ++
      r.addedNames own (names ++ r.addedNames own names [fix]) fixes := by
  cases fix with
  | addImport n =>
    simp only [addedNames, missingNames, List.filterMap_cons, List.filterMap_nil,
      List.eraseDups_cons, List.filter_nil, List.eraseDups_nil, filter_eraseDups]
    rw [← List.singleton_append, List.filter_append, List.filter_filter]
    congr 1
    refine List.filter_congr fun m _ => ?_
    by_cases same : m = n
    · subst same
      cases hn : names.contains m <;> cases ho : (r.offered? own m).isSome <;> simp_all
    · simp [same]
  | importByName _ _ => simp [addedNames, missingNames]
  | importDefault _ _ => simp [addedNames, missingNames]
  | correctPath _ => simp [addedNames, missingNames]

theorem addedNames_nothing {names : List String} {fix : Fix}
    (h : ∀ n, fix = .addImport n → n ∈ names ∨ r.offered? own n = none) :
    r.addedNames own names [fix] = [] := by
  cases fix with
  | addImport n =>
    refine List.filter_eq_nil_iff.mpr fun m hm => ?_
    obtain rfl : m = n := by simpa [missingNames, List.eraseDups_cons] using hm
    rcases h m rfl with there | none
    · simp only [List.contains_iff_mem.mpr there]
      simp
    · simp [none]
  | _ => rfl

theorem addedNames_new {names : List String} {n : String} (h : n ∉ names)
    (offered : (r.offered? own n).isSome = true) :
    r.addedNames own names [.addImport n] = [n] := by
  simp [addedNames, missingNames, List.eraseDups_cons, h, offered]

/-! ## Imported names -/

/-- A fix leaves the imported names as they are and adds at most the one that it reports. -/
theorem Rebinds.names {fix : Fix} {bs bs' : List Binding} (h : Rebinds r root own fix bs bs')
    (hn : ∀ name, fix = .addImport name → name ≠ "") :
    (bs'.map (·.localName)).Perm
      (bs.map (·.localName) ++ r.addedNames own (bs.map (·.localName)) [fix]) := by
  cases h with
  | unchanged same kept =>
    rw [addedNames_nothing kept, List.append_nil]
    exact same.map _
  | byName _ _ before after =>
    rw [addedNames_nothing (by simp), List.append_nil]
    simpa using (after.map (·.localName)).trans (before.map (·.localName)).symm
  | byDefault _ _ _ before after =>
    rw [addedNames_nothing (by simp), List.append_nil]
    simpa using (after.map (·.localName)).trans (before.map (·.localName)).symm
  | @added name d _ _ fresh offered more =>
    rw [addedNames_new fresh (by rw [offered]; rfl), ← offered?_bindings (hn name rfl) offered]
    simpa using more.map (·.localName)
  | @corrected specifier collapsed _ _ _ after =>
    rw [addedNames_nothing (by simp), List.append_nil]
    have same : ∀ b : Binding, (b.correct specifier collapsed).localName = b.localName := by
      intro b
      unfold Binding.correct
      split <;> rfl
    simpa [Function.comp_def, same] using after.map (·.localName)

/-- Along a list of fixes the imported names stay, and exactly the missing ones are added. -/
theorem RebindsAll.names {fixes : List Fix} {bs bs' : List Binding}
    (h : RebindsAll r root own fixes bs bs') (hn : ∀ name, .addImport name ∈ fixes → name ≠ "") :
    (bs'.map (·.localName)).Perm
      (bs.map (·.localName) ++ r.addedNames own (bs.map (·.localName)) fixes) := by
  induction h with
  | nil => simp [addedNames, missingNames]
  | @cons fix fixes bs cs ds first _ ih =>
    have here := first.names fun name same => hn name (same ▸ List.mem_cons_self)
    have rest := ih fun name there => hn name (List.mem_cons_of_mem _ there)
    rw [addedNames_cons, ← List.append_assoc]
    rw [addedNames_congr (fun _ => here.mem_iff)] at rest
    exact rest.trans (here.append_right _)

theorem addedNames_fresh {names : List String} {fixes : List Fix} :
    ∀ n ∈ r.addedNames own names fixes, n ∉ names := by
  intro n hn
  have there := (List.mem_filter.mp hn).2
  simp only [Bool.and_eq_true, Bool.not_eq_true', List.contains_eq_mem, decide_eq_false_iff_not]
    at there
  exact there.1

theorem nodup_addedNames {names : List String} (h : names.Nodup) (fixes : List Fix) :
    (names ++ r.addedNames own names fixes).Nodup := by
  rw [List.nodup_append]
  refine ⟨h, (nodup_eraseDups _).sublist List.filter_sublist, ?_⟩
  intro a ha b hb same
  exact addedNames_fresh b hb (same ▸ ha)

end Repairs

end ModuleRepair
