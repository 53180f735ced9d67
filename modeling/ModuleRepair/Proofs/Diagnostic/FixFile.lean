import ModuleRepair.Proofs.Diagnostic.Classify
import ModuleRepair.Proofs.Diagnostic.FixLines
import ModuleRepair.Proofs.Repair.Work

/-!
# Fixing a file rebinds nothing else

Every fix edits one import at a time, or adds one, and the module is read again after each edit. As
long as it is read as it was edited, a list of diagnostics does to its bindings what the fixes do
one after the other (`RebindsAll`).
-/
namespace ModuleRepair.Repairs

open ModuleRepair.Script ModuleRepair.SourceFile

/-- The file after an attempt to fix it. -/
def fileAfter (f : SourceFile) : Except LanguageError (Option Repaired) → SourceFile
  | .ok (some (f', _)) => f'
  | _ => f

/-- A file with its bindings changed by one fix. -/
structure Fixed (r : Repairs) (root : AliasRoot) (files : SourceFile → Prop) (fix : Fix)
    (f : SourceFile) (o : Outline) (f' : SourceFile) : Prop where
  path_eq : f'.path = f.path
  root_eq : f'.root = f.root
  mem : files f'
  rebinds : ∃ o', f'.read = .ok (some o') ∧
    Rebinds r root f.specifier? fix (bindingsOf o.imports) (bindingsOf o'.imports)

variable {r : Repairs} {p : Project} {files : SourceFile → Prop} {fixes : List Fix} {fix : Fix}
  {f : SourceFile} {o : Outline} {name specifier : String}

theorem fixed_unchanged (hf : files f) (hr : f.read = .ok (some o))
    (kept : ∀ name, fix = .addImport name →
      name ∈ (bindingsOf o.imports).map (·.localName) ∨ r.offered? f.specifier? name = none) :
    Fixed r p.root files fix f o f :=
  ⟨rfl, rfl, hf, o, hr, .unchanged (.refl _) kept⟩

theorem findImport?_eq_some {root : AliasRoot} {q : Import → Bool} {d : Import}
    (h : findImport? root o specifier q = some d) :
    d ∈ o.imports ∧ Leads root d.specifier specifier ∧ q d = true := by
  rcases Option.or_eq_some_iff.mp h with found | ⟨-, found⟩
  · have fits := List.find?_some found
    simp only [Bool.and_eq_true, decide_eq_true_eq] at fits
    exact ⟨List.mem_of_find?_eq_some found, .inl fits.1, fits.2⟩
  · have fits := List.find?_some found
    simp only [Bool.and_eq_true] at fits
    exact ⟨List.mem_of_find?_eq_some found, .inr fits.1, fits.2⟩

theorem bindingsOf_split {ds front back : List Import} {d : Import}
    (split : ds = front ++ d :: back) : bindingsOf ds = bindingsOf (front ++ [d] ++ back) := by
  rw [split, List.append_cons]

theorem localNames_nodup (hn : (namesOf o.imports).Nodup) {d : Import} (hd : d ∈ o.imports) :
    d.localNames.Nodup := by
  have alone := namesOf_sublist (List.singleton_sublist.mpr hd)
  rw [show namesOf [d] = d.localNames by simp [namesOf]] at alone
  exact hn.sublist alone

section

variable (h : Rereads (Repairing r p.root f.specifier? fixes) files) (hf : files f)
  (hr : f.read = .ok (some o))
include h hf hr

theorem importByName_fixed (hn : (namesOf o.imports).Nodup)
    (there : .importByName name specifier ∈ fixes) :
    Fixed r p.root files (.importByName name specifier) f o
      (fileAfter f (importByName p f name specifier)) := by
  simp only [importByName, outline_of_read hr, bind, Except.bind]
  cases found : findImport? p.root o specifier fun d => d.defaultName.isSome with
  | none => exact fixed_unchanged hf hr (by simp)
  | some d =>
    obtain ⟨hd, leads, isSome⟩ := findImport?_eq_some found
    obtain ⟨x, hx⟩ := Option.isSome_iff_exists.mp isSome
    obtain ⟨front, back, split⟩ := List.append_of_mem hd
    obtain ⟨rest, before, after⟩ := bindings_bindByName (parsed_of_read hr d hd) hx
      (localNames_nodup hn hd) name
    have read := h.replaced hf hr split (.byName there (by simp [split]) isSome leads)
    obtain ⟨o', hr', bindings⟩ := read.bindings
    rw [← bindingsOf_singleton] at before
    exact ⟨rfl, rfl, read.1, o', hr',
      .byName (b := d.bindDefault x) rfl leads (bindingsOf_around (bindingsOf_split split) before)
        (bindingsOf_around bindings after)⟩

theorem importDefault_fixed (there : .importDefault name specifier ∈ fixes) (letters : name ≠ "") :
    Fixed r p.root files (.importDefault name specifier) f o
      (fileAfter f (importDefault p f name specifier)) := by
  have unchanged : Fixed r p.root files (.importDefault name specifier) f o f :=
    fixed_unchanged hf hr (by simp)
  simp only [importDefault, outline_of_read hr, bind, Except.bind]
  cases found : findImport? p.root o specifier fun d => d.named.any (·.localName = name) with
  | none => exact unchanged
  | some d =>
    obtain ⟨hd, leads, -⟩ := findImport?_eq_some found
    obtain ⟨front, back, split⟩ := List.append_of_mem hd
    -- Unless the other module shows that it would be wrong, the binding is converted.
    have converted : Fixed r p.root files (.importDefault name specifier) f o
        (fileAfter f (.ok ((d.namedToDefault? name).map fun new =>
          (f.replaceImport d [new], "named import of '" ++ name ++ "' from '" ++ d.specifier ++
            "' → default import")))) := by
      cases new : d.namedToDefault? name with
      | none => exact unchanged
      | some new' =>
        obtain ⟨b, -, named, rest, before, after⟩ := Import.bindings_namedToDefault? letters new
        have read := h.replaced hf hr split (.byDefault there (by simp [split]) leads new)
        obtain ⟨o', hr', bindings⟩ := read.bindings
        rw [← bindingsOf_singleton] at before after
        exact ⟨rfl, rfl, read.1, o', hr', .byDefault (b := d.bindNamed b) rfl named leads
          (bindingsOf_around (bindingsOf_split split) before) (bindingsOf_around bindings after)⟩
    dsimp only
    cases p.resolve? f.path d.specifier with
    | none => exact converted
    | some target =>
      dsimp only
      cases offersByNameOnly target name with
      | error e => exact unchanged
      | ok outdated =>
        cases outdated with
        | true => exact unchanged
        | false => exact converted

theorem addImportOf_fixed {isDefault : Bool} (there : .addImport name ∈ fixes)
    (fresh : name ∉ namesOf o.imports)
    (offered : r.offered? f.specifier? name = some (importOf name specifier isDefault)) :
    Fixed r p.root files (.addImport name) f o
      (fileAfter f (addImportOf f name specifier isDefault)) := by
  obtain ⟨f', added, read⟩ := h.added hf hr (.added there fresh offered)
  obtain ⟨path, root⟩ := addImport_path added
  obtain ⟨o', hr', bindings⟩ := read.bindings
  obtain ⟨text, after⟩ :
      ∃ text, addImportOf f name specifier isDefault = .ok (some (f', text)) := by
    unfold addImportOf
    rw [importOf] at added
    exact ⟨_, by simp only [added, bind, Except.bind]; rfl⟩
  rw [after]
  refine ⟨path, root, read.1, o', hr', .added ?_ offered ?_⟩
  · rwa [bindingsOf_localName]
  · rw [bindings, bindingsOf_append, bindingsOf_singleton]

theorem addImport_fixed (there : .addImport name ∈ fixes) :
    Fixed r p.root files (.addImport name) f o (fileAfter f (r.addImport f name)) := by
  have unchanged (kept : name ∈ namesOf o.imports ∨ r.offered? f.specifier? name = none) :
      Fixed r p.root files (.addImport name) f o f := by
    refine fixed_unchanged hf hr fun n same => ?_
    cases same
    rwa [bindingsOf_localName]
  simp only [addImport, outline_of_read hr, bind, Except.bind]
  split
  · next imported =>
    exact unchanged (.inl (List.contains_iff_mem.mp imported))
  · next missing =>
    have fresh : name ∉ namesOf o.imports := fun imported =>
      missing (List.contains_iff_mem.mpr imported)
    split
    · next s special =>
      exact addImportOf_fixed h hf hr there fresh (by simp [offered?, special])
    · next special =>
      split
      · next none => exact unchanged (.inr (by simp [offered?, special, none]))
      · next e entry =>
        split
        · next own => exact unchanged (.inr (by simp [offered?, special, entry, own]))
        · next other =>
          exact addImportOf_fixed h hf hr there fresh (by
            simp [offered?, special, entry, Option.filter_some, other])

end

theorem collapse?_ne {root : AliasRoot} {collapsed : String}
    (h : root.collapse? specifier = some collapsed) : collapsed ≠ specifier := by
  rintro rfl
  simp only [AliasRoot.collapse?] at h
  split at h
  · cases h
  · next below found =>
    split at h
    · cases h
    · next shorter =>
      simp only [Text.afterStart?, Option.ite_none_right_eq_some, Option.some.injEq] at found
      obtain ⟨marked, rfl⟩ := found
      have text := congrArg String.toList (Option.some.inj h)
      rw [String.toList_append, String.toList_ofList] at text
      have below := congrArg (List.drop root.mark.toList.length) text
      rw [List.drop_left] at below
      exact shorter (.inl (congrArg List.length below))

/-- The number of imports of a specifier. -/
def importCount (specifier : String) (ds : List Import) : Nat :=
  (ds.map Import.specifier).count specifier

theorem importCount_replaced {ds ds' front back : List Import} {d : Import} {new : String}
    (split : ds = front ++ d :: back) (other : new ≠ d.specifier)
    (read : ds'.map Import.normal =
      (front ++ [{ d with specifier := new }] ++ back).map Import.normal) :
    importCount d.specifier ds = importCount d.specifier ds' + 1 := by
  have specifiers : ds'.map Import.specifier =
      (front ++ [{ d with specifier := new }] ++ back).map Import.specifier := by
    simpa [Function.comp_def] using congrArg (List.map Import.specifier) read
  simp only [importCount, specifiers, split, List.map_append, List.map_cons, List.map_nil,
    List.count_append, List.count_cons, List.count_nil]
  simp [other]
  omega

/-- One import after the other gets the new specifier, until none has the old one. -/
theorem replaceSpecifier_corrects {root : AliasRoot} {own : Option String} {new : String}
    (h : Rereads (Repairing r root own fixes) files) (there : .correctPath specifier ∈ fixes)
    (collapsed : root.collapse? specifier = some new) {n : Nat} (hf : files f)
    (hr : f.read = .ok (some o)) (hn : importCount specifier o.imports ≤ n) :
    ∃ f' count, replaceSpecifier specifier new n f = .ok (f', count) ∧ f'.path = f.path ∧
      f'.root = f.root ∧ files f' ∧ ∃ o', f'.read = .ok (some o') ∧
        bindingsOf o'.imports = (bindingsOf o.imports).map (Binding.correct specifier new) ∧
        ∀ d ∈ o'.imports, d.specifier ≠ specifier := by
  induction n generalizing f o with
  | zero =>
    have none : ∀ d ∈ o.imports, d.specifier ≠ specifier := by
      intro d hd same
      have missing := List.count_eq_zero.mp (Nat.le_zero.mp hn)
      exact missing (same ▸ List.mem_map_of_mem hd)
    exact ⟨f, 0, rfl, rfl, rfl, hf, o, hr, (bindingsOf_correct_of_ne none).symm, none⟩
  | succ n ih =>
    simp only [replaceSpecifier, outline_of_read hr, bind, Except.bind]
    cases found : o.imports.find? (·.specifier = specifier) with
    | none =>
      have none : ∀ d ∈ o.imports, d.specifier ≠ specifier := by
        simpa using List.find?_eq_none.mp found
      exact ⟨f, 0, rfl, rfl, rfl, hf, o, hr, (bindingsOf_correct_of_ne none).symm, none⟩
    | some d =>
      obtain rfl : d.specifier = specifier := by simpa using List.find?_some found
      obtain ⟨front, back, split⟩ := List.append_of_mem (List.mem_of_find?_eq_some found)
      have read := h.replaced hf hr split (.corrected there collapsed (by simp [split]) rfl)
      obtain ⟨hg, o', hr', imports, -⟩ := read
      have fewer := importCount_replaced split (collapse?_ne collapsed) imports
      obtain ⟨f', count, replaced, path, root, hf', o'', hr'', bindings, none⟩ :=
        ih hg hr' (by omega)
      refine ⟨f', count + 1, ?_, path, root, hf', o'', hr'', ?_, none⟩
      · simp only [replaced]
        rfl
      · rw [bindings, ← bindingsOf_normal, imports, bindingsOf_normal,
          bindingsOf_correct (collapse?_ne collapsed), bindingsOf_split split]

section

variable (h : Rereads (Repairing r p.root f.specifier? fixes) files) (hf : files f)
  (hr : f.read = .ok (some o))
include h hf hr

theorem correctPath_fixed (there : .correctPath specifier ∈ fixes) :
    Fixed r p.root files (.correctPath specifier) f o
      (fileAfter f (correctPath p f specifier)) := by
  have unchanged : Fixed r p.root files (.correctPath specifier) f o f :=
    fixed_unchanged hf hr (by simp)
  simp only [correctPath]
  split
  · exact unchanged
  · next collapsed found =>
    have bound : importCount specifier o.imports ≤ o.imports.length := by
      simpa [importCount] using
        List.count_le_length (l := o.imports.map Import.specifier) (a := specifier)
    obtain ⟨f', count, replaced, path, root, hf', o', hr', bindings, -⟩ :=
      replaceSpecifier_corrects h there found hf hr bound
    simp only [outline_of_read hr, bind, Except.bind, replaced]
    by_cases none : count = 0
    · rw [if_pos none]
      exact unchanged
    · rw [if_neg none]
      exact ⟨path, root, hf', o', hr', .corrected found (bindings ▸ .refl _)⟩

/-- Whatever a fix does to a file, it does to its bindings. -/
theorem apply_fixed (hn : (namesOf o.imports).Nodup) (there : fix ∈ fixes)
    (letters : ∀ name, fix.boundName? = some name → name ≠ "") :
    Fixed r p.root files fix f o (fileAfter f (r.apply p f fix)) := by
  cases fix with
  | importByName name specifier => exact importByName_fixed h hf hr hn there
  | importDefault name specifier => exact importDefault_fixed h hf hr there (letters name rfl)
  | addImport name => exact addImport_fixed h hf hr there
  | correctPath specifier => exact correctPath_fixed h hf hr there

end

/-! ## The work -/

/-- What the fix of one diagnostic does to the work. -/
theorem fixOne_run (r : Repairs) (path : String) (d : Diagnostic) (w : Work) :
    (r.fixOne path d).run w =
      match Fix.classify? d.code d.message, w.project.find? path with
      | some fix, some f =>
        match r.apply w.project f fix with
        | .error e => (.error e, w)
        | .ok none => (.ok none, w)
        | .ok (some (f', text)) => (.ok (some ⟨d.code, path, text⟩), { w with
            project := w.project.put f'
            stats := { w.stats with
              diagnosticsResolved := w.stats.diagnosticsResolved + 1
              importsFixed := w.stats.importsFixed + 1 } })
      | _, _ => (.ok none, w) := by
  cases classified : Fix.classify? d.code d.message with
  | none =>
    simp only [fixOne, classified]
    rfl
  | some fix =>
    simp only [fixOne, classified, ExceptT.run]
    change (match some fix, w.project.find? path with
      | some fix, some f => _
      | _, _ => _ : Attempt (Option FixAction)) w = _
    cases w.project.find? path with
    | none => rfl
    | some f =>
      change (Attempt.of (r.apply w.project f fix) >>= _) w =
        match r.apply w.project f fix with
        | .error e => _
        | .ok none => _
        | .ok (some (f', text)) => _
      cases r.apply w.project f fix with
      | error e => rfl
      | ok result => cases result <;> rfl

/-- The step of one diagnostic puts the fixed file into the project, if there is one. -/
theorem fixOne_project (r : Repairs) (path : String) (d : Diagnostic) (w : Work) :
    (((r.fixOne path d).orReport none (.diagnosticFailed d.code)).run w).2.project =
      match Fix.classify? d.code d.message, w.project.find? path with
      | some fix, some f =>
        match r.apply w.project f fix with
        | .ok (some (f', _)) => w.project.put f'
        | _ => w.project
      | _, _ => w.project := by
  rw [Attempt.orReport_run, fixOne_run]
  cases Fix.classify? d.code d.message with
  | none => rfl
  | some fix =>
    cases w.project.find? path with
    | none => rfl
    | some f =>
      dsimp only
      rcases r.apply w.project f fix with e | none | ⟨f', text⟩ <;> rfl

/-- The module under a path, of a given specifier, is in a set and binds what is given. -/
def Binds (files : SourceFile → Prop) (own : Option String) (path : String) (w : Work)
    (bs : List Binding) : Prop :=
  ∃ f o, w.project.find? path = some f ∧ f.specifier? = own ∧ files f ∧ f.read = .ok (some o) ∧
    bindingsOf o.imports = bs

/-- Another project with the same modules but one. -/
def SameBut (path : String) (p p' : Project) : Prop :=
  p'.root = p.root ∧ ∀ other ≠ path, p'.find? other = p.find? other

section

variable {own : Option String} {path : String} {root : AliasRoot}

theorem RebindsAll.append {fixes' : List Fix} {bs cs ds : List Binding}
    (first : RebindsAll r root own fixes bs cs) (second : RebindsAll r root own fixes' cs ds) :
    RebindsAll r root own (fixes ++ fixes') bs ds := by
  induction first with
  | nil => exact second
  | cons here _ ih => exact .cons here (ih second)

/-- One diagnostic. -/
theorem fixOne_rebinds {w : Work} {d : Diagnostic} {bs : List Binding}
    (h : Rereads (Repairing r w.project.root own fixes) files)
    (looked : ∀ fix ∈ Fix.classify? d.code d.message, fix ∈ fixes)
    (binds : Binds files own path w bs) (hn : (bs.map (·.localName)).Nodup) :
    ∃ bs', Binds files own path
        (((r.fixOne path d).orReport none (.diagnosticFailed d.code)).run w).2 bs' ∧
      RebindsAll r w.project.root own (Fix.classify? d.code d.message).toList bs bs' ∧
      SameBut path w.project
        (((r.fixOne path d).orReport none (.diagnosticFailed d.code)).run w).2.project := by
  obtain ⟨f, o, found, rfl, hf, hr, rfl⟩ := binds
  have step := fixOne_project r path d w
  rw [found] at step
  cases classified : Fix.classify? d.code d.message with
  | none =>
    rw [classified] at step
    refine ⟨_, ⟨f, o, by rw [step, found], rfl, hf, hr, rfl⟩, .nil, ?_⟩
    rw [step]
    exact ⟨rfl, fun _ _ => rfl⟩
  | some fix =>
    rw [classified] at step
    dsimp only at step
    have named : f.path = path := by simpa using List.find?_some found
    have fixed := apply_fixed h hf hr (by rwa [← bindingsOf_localName]) (looked fix classified)
      fun name => Fix.boundName_ne_empty classified
    obtain ⟨o', hr', rebinds⟩ := fixed.rebinds
    have own' : (fileAfter f (r.apply w.project f fix)).specifier? = f.specifier? := by
      simp only [SourceFile.specifier?, fixed.path_eq, fixed.root_eq]
    have after : SameBut path w.project
        (((r.fixOne path d).orReport none (.diagnosticFailed d.code)).run w).2.project ∧
        (((r.fixOne path d).orReport none (.diagnosticFailed d.code)).run w).2.project.find? path =
          some (fileAfter f (r.apply w.project f fix)) := by
      have path_eq := fixed.path_eq
      rw [step]
      revert path_eq
      rcases r.apply w.project f fix with e | none | ⟨f', text⟩ <;> intro path_eq
      · exact ⟨⟨rfl, fun _ _ => rfl⟩, found⟩
      · exact ⟨⟨rfl, fun _ _ => rfl⟩, found⟩
      · obtain rfl : f'.path = path := path_eq.trans named
        exact ⟨⟨rfl, fun _ => Project.find?_put_of_ne _⟩, Project.find?_put ..⟩
    exact ⟨_, ⟨_, o', after.2, own', fixed.mem, hr', rfl⟩, .cons rebinds .nil, after.1⟩

/-- A list of diagnostics, one after the other. -/
theorem fixAll_rebinds {diagnostics : List Diagnostic} {w : Work} {bs : List Binding}
    (h : Rereads (Repairing r root own fixes) files) (hroot : w.project.root = root)
    (looked : ∀ fix ∈ diagnostics.filterMap fun d => Fix.classify? d.code d.message, fix ∈ fixes)
    (binds : Binds files own path w bs) (hn : (bs.map (·.localName)).Nodup) :
    ∃ bs', Binds files own path ((diagnostics.filterMapM fun d =>
        (r.fixOne path d).orReport none (.diagnosticFailed d.code)).run w).2 bs' ∧
      RebindsAll r root own (diagnostics.filterMap fun d => Fix.classify? d.code d.message) bs bs' ∧
      SameBut path w.project ((diagnostics.filterMapM fun d =>
        (r.fixOne path d).orReport none (.diagnosticFailed d.code)).run w).2.project := by
  induction diagnostics generalizing w bs with
  | nil => exact ⟨bs, binds, .nil, rfl, fun _ _ => rfl⟩
  | cons d diagnostics ih =>
    subst hroot
    obtain ⟨cs, binds', here, same⟩ := fixOne_rebinds (d := d) h
      (fun fix classified => looked fix (List.mem_filterMap.mpr ⟨d, List.mem_cons_self, classified⟩))
      binds hn
    have letters : ∀ name, .addImport name ∈ (Fix.classify? d.code d.message).toList → name ≠ "" :=
      fun name there => Fix.boundName_ne_empty (Option.mem_toList.mp there) rfl
    have names : (cs.map (·.localName)).Nodup :=
      (here.names letters).symm.nodup (nodup_addedNames hn _)
    have rest : ∀ fix ∈ diagnostics.filterMap fun d => Fix.classify? d.code d.message,
        fix ∈ fixes := by
      intro fix there
      obtain ⟨d', hd', classified⟩ := List.mem_filterMap.mp there
      exact looked fix (List.mem_filterMap.mpr ⟨d', List.mem_cons_of_mem _ hd', classified⟩)
    obtain ⟨bs', binds'', later, same'⟩ := ih same.1 rest binds' names
    rw [Step.filterMapM_cons_run]
    refine ⟨bs', binds'', ?_, same'.1.trans same.1, fun other ne => ?_⟩
    · have both := here.append later
      cases classified : Fix.classify? d.code d.message <;> simpa [classified] using both
    · rw [same'.2 other ne, same.2 other ne]

/-- Fixing a file keeps its imported names distinct and adds exactly the missing ones. Its bindings
change as the fixes say, one after the other, and no other module of the project changes. -/
theorem fixFile_rebinds {diagnostics : List Diagnostic} {w : Work}
    (h : Rereads (Repairing r w.project.root f.specifier? (r.fixes diagnostics)) files)
    (found : w.project.find? path = some f) (hf : files f) (hr : f.read = .ok (some o))
    (hn : (namesOf o.imports).Nodup) :
    ∃ f' o', ((r.fixFile path diagnostics).run w).2.project.find? path = some f' ∧
      f'.read = .ok (some o') ∧
      (namesOf o'.imports).Nodup ∧
      (namesOf o'.imports).Perm (namesOf o.imports ++
        r.addedNames f.specifier? (namesOf o.imports) (r.fixes diagnostics)) ∧
      (∀ name ∈ r.addedNames f.specifier? (namesOf o.imports) (r.fixes diagnostics),
        name ∉ namesOf o.imports) ∧
      RebindsAll r w.project.root f.specifier? (r.fixes diagnostics) (bindingsOf o.imports)
        (bindingsOf o'.imports) ∧
      ∀ other ≠ path, ((r.fixFile path diagnostics).run w).2.project.find? other =
        w.project.find? other := by
  obtain ⟨bs', ⟨f', o', found', -, -, hr', rfl⟩, rebinds, -, others⟩ := fixAll_rebinds h rfl
    (fun _ there => there) ⟨f, o, found, rfl, hf, hr, rfl⟩ (by rwa [bindingsOf_localName])
  have letters : ∀ name, .addImport name ∈ r.fixes diagnostics → name ≠ "" := by
    intro name there
    obtain ⟨d, -, classified⟩ := List.mem_filterMap.mp there
    exact Fix.boundName_ne_empty classified rfl
  have names := rebinds.names letters
  simp only [bindingsOf_localName] at names
  exact ⟨f', o', found', hr', names.symm.nodup (nodup_addedNames hn _), names, addedNames_fresh,
    rebinds, others⟩

end

/-- Imports that the compiler complains about. -/
def faultyImports : List Import := [
  { specifier := "./price", defaultName := some "cost", namespaceName := some "prices" },
  { specifier := "./cart", named := [⟨"Cart", none, false⟩, ⟨"Item", some "Entry", true⟩] },
  { specifier := "@/../theme", defaultName := some "theme", quote := "\x27", semicolon := false }]

/-- A module of these imports. -/
def faultyModule : SourceFile where
  path := "/app/main.ts"
  text := String.intercalate "\n" (faultyImports.map (·.render))
  saved := ""
  root := ⟨"@/", "/app"⟩

/-- A project of this module. -/
def faultyWork : Work where
  project := ⟨"/app", ⟨"@/", "/app"⟩, .full, [faultyModule]⟩

/-- The complaints, one of each kind. -/
def complaints : List Diagnostic := [
  { code := 2613
    message := "Did you mean to use 'import \x7b price \x7d from \"./price\"' instead?" },
  { code := 2614, message := "Did you mean to use 'import Cart from \"./cart\"' instead?" },
  { code := 2304, message := "Cannot find name 'cn'." },
  { code := 2307, message := "Cannot find module '@/../theme' or its type declarations." }]

/-- Repairs that know the standard names only. -/
def standardRepairs : Repairs where
  special := standardSpecial

theorem fixes_complaints : standardRepairs.fixes complaints =
    [.importByName "price" "./price", .importDefault "Cart" "./cart", .addImport "cn",
      .correctPath "@/../theme"] := by
  decide +kernel

theorem plain_complaints (own : Option String) : PlainFixes standardRepairs ⟨"@/", "/app"⟩ own
    (standardRepairs.fixes complaints) := by
  rw [fixes_complaints]
  refine ⟨?_, ?_, ?_⟩
  · intro name specifier there
    obtain ⟨rfl, rfl⟩ : name = "price" ∧ specifier = "./price" := by simpa using there
    decide
  · intro name d there offered
    obtain rfl : name = "cn" := by simpa using there
    obtain rfl : importOf "cn" "@/lib/utils" false = d := Option.some.inj offered
    have alone : importOf "cn" "@/lib/utils" false =
        { specifier := "@/lib/utils", named := [⟨"cn", none, false⟩] } := by
      simp [importOf, Import.fresh, sortNamed, distinct]
    rw [alone]
    exact ⟨by decide, by decide⟩
  · intro specifier collapsed there found
    obtain rfl : specifier = "@/../theme" := by simpa using there
    obtain rfl : "@/theme" = collapsed := Option.some.inj found
    simp

theorem faultyModule_rebinds :
    Rereads (Repairing standardRepairs faultyWork.project.root faultyModule.specifier?
        (standardRepairs.fixes complaints))
        (fun f => ∃ ds, ds ≠ [] ∧ HoldsLines .typescript ds f) ∧
      faultyWork.project.find? "/app/main.ts" = some faultyModule ∧
      (∃ ds, ds ≠ [] ∧ HoldsLines .typescript ds faultyModule) ∧
      faultyModule.read = .ok (some { imports := placed 0 faultyImports }) ∧
      (namesOf (placed 0 faultyImports)).Nodup ∧
      ∃ f' o', ((standardRepairs.fixFile "/app/main.ts" complaints).run
          faultyWork).2.project.find? "/app/main.ts" = some f' ∧
        f'.read = .ok (some o') ∧
        (namesOf o'.imports).Nodup ∧
        (namesOf o'.imports).Perm (namesOf (placed 0 faultyImports) ++
          standardRepairs.addedNames faultyModule.specifier? (namesOf (placed 0 faultyImports))
            (standardRepairs.fixes complaints)) ∧
        (∀ name ∈ standardRepairs.addedNames faultyModule.specifier?
            (namesOf (placed 0 faultyImports)) (standardRepairs.fixes complaints),
          name ∉ namesOf (placed 0 faultyImports)) ∧
        RebindsAll standardRepairs faultyWork.project.root faultyModule.specifier?
          (standardRepairs.fixes complaints) (bindingsOf (placed 0 faultyImports))
          (bindingsOf o'.imports) ∧
        ∀ other ≠ "/app/main.ts", ((standardRepairs.fixFile "/app/main.ts" complaints).run
          faultyWork).2.project.find? other = faultyWork.project.find? other := by
  have lines : HoldsLines .typescript faultyImports faultyModule :=
    ⟨by decide, rfl, by decide, .inl rfl⟩
  have rereads := repairing_rereads (l := .typescript) (plain_complaints faultyModule.specifier?)
  have found : faultyWork.project.find? "/app/main.ts" = some faultyModule := rfl
  have names : (namesOf (placed 0 faultyImports)).Nodup := by decide
  have there : ∃ ds, ds ≠ [] ∧ HoldsLines .typescript ds faultyModule := ⟨_, by decide, lines⟩
  exact ⟨rereads, found, there, lines.read, names,
    fixFile_rebinds rereads found there lines.read names⟩

end ModuleRepair.Repairs
