import ModuleRepair.Proofs.Diagnostic.FixFile
import ModuleRepair.Proofs.SourceFile.Edited

/-!
# Fixes edit imports only

Whatever a fix makes of a file comes about by the edits of fixes, one after the other. Nothing is
assumed of how the file is read in between.
-/
namespace ModuleRepair.Repairs

open ModuleRepair.Script ModuleRepair.SourceFile Relation

variable {r : Repairs} {p : Project} {fixes : List Fix} {fix : Fix} {f f' : SourceFile}
  {name specifier text : String}

theorem importByName_edited (there : .importByName name specifier ∈ fixes)
    (h : importByName p f name specifier = .ok (some (f', text))) :
    Edited (Repairing r p.root f.specifier? fixes) f f' := by
  simp only [importByName, bind, Except.bind] at h
  split at h
  · cases h
  · next o ho =>
    obtain ⟨d, found, same⟩ := Option.map_eq_some_iff.mp (Except.ok.inj h)
    cases same
    obtain ⟨hd, leads, isSome⟩ := findImport?_eq_some found
    exact .single (.replace ho hd fun i hi => .byName there hi isSome leads)

/-- A binding is converted in one way only, whatever the other module shows. -/
theorem importDefault_eq_ok (h : importDefault p f name specifier = .ok (some (f', text))) :
    ∃ o d new, f.outline = .ok o ∧
      findImport? p.root o specifier (fun d => d.named.any (·.localName = name)) = some d ∧
      d.namedToDefault? name = some new ∧ f' = f.replaceImport d [new] := by
  simp only [importDefault, bind, Except.bind] at h
  split at h
  · cases h
  · next o ho =>
    split at h
    · cases h
    · next d found =>
      have one {outdated : Bool} {words : String}
          (h : (if outdated then pure none else pure ((d.namedToDefault? name).map fun new =>
            (f.replaceImport d [new], words))) = Except.ok (ε := LanguageError) (some (f', text))) :
          ∃ new, d.namedToDefault? name = some new ∧ f' = f.replaceImport d [new] := by
        split at h
        · cases h
        · obtain ⟨new, converted, same⟩ := Option.map_eq_some_iff.mp (Except.ok.inj h)
          cases same
          exact ⟨new, converted, rfl⟩
      split at h
      · split at h
        · cases h
        · exact ⟨o, d, (one h).imp fun new converted => ⟨ho, found, converted⟩⟩
      · exact ⟨o, d, (one h).imp fun new converted => ⟨ho, found, converted⟩⟩

theorem importDefault_edited (there : .importDefault name specifier ∈ fixes)
    (h : importDefault p f name specifier = .ok (some (f', text))) :
    Edited (Repairing r p.root f.specifier? fixes) f f' := by
  obtain ⟨o, d, new, ho, found, converted, rfl⟩ := importDefault_eq_ok h
  obtain ⟨hd, leads, -⟩ := findImport?_eq_some found
  exact .single (.replace ho hd fun i hi => .byDefault there hi leads converted)

/-- A fix that adds an import adds the one that is offered for a name not imported yet. -/
theorem addImport_offers (h : r.addImport f name = .ok (some (f', text))) :
    ∃ o d, f.outline = .ok o ∧ name ∉ namesOf o.imports ∧
      r.offered? f.specifier? name = some d ∧ f.addImport d = .ok f' := by
  simp only [addImport, bind, Except.bind] at h
  split at h
  · cases h
  · next o ho =>
    split at h
    · cases h
    · next missing =>
      have fresh : name ∉ namesOf o.imports := fun imported =>
        missing (List.contains_iff_mem.mpr imported)
      have one {specifier : String} {isDefault : Bool}
          (offered : r.offered? f.specifier? name = some (importOf name specifier isDefault))
          (h : addImportOf f name specifier isDefault = .ok (some (f', text))) :
          ∃ d, r.offered? f.specifier? name = some d ∧ f.addImport d = .ok f' := by
        simp only [addImportOf, bind, Except.bind] at h
        split at h
        · cases h
        · next added =>
          cases h
          exact ⟨_, offered, added⟩
      refine ⟨o, (?_ : ∃ d, _).imp fun d offer => ⟨ho, fresh, offer⟩⟩
      split at h
      · next s special => exact one (by simp [offered?, special]) h
      · next special =>
        split at h
        · cases h
        · next e entry =>
          split at h
          · cases h
          · next other =>
            exact one (by simp [offered?, special, entry, Option.filter_some, other]) h

theorem addImport_edited (there : .addImport name ∈ fixes)
    (h : r.addImport f name = .ok (some (f', text))) :
    Edited (Repairing r p.root f.specifier? fixes) f f' := by
  obtain ⟨o, d, ho, fresh, offered, added⟩ := addImport_offers h
  exact .single (.add ho (.added there fresh offered) added)

theorem replaceSpecifier_edited {root : AliasRoot} {own : Option String} {new : String}
    (there : .correctPath specifier ∈ fixes) (collapsed : root.collapse? specifier = some new)
    {n count : Nat} (h : replaceSpecifier specifier new n f = .ok (f', count)) :
    Edited (Repairing r root own fixes) f f' := by
  induction n generalizing f count with
  | zero =>
    cases h
    exact .refl
  | succ n ih =>
    simp only [replaceSpecifier, bind, Except.bind] at h
    split at h
    · cases h
    · next o ho =>
      split at h
      · cases h
        exact .refl
      · next d found =>
        have same : d.specifier = specifier := by simpa using List.find?_some found
        split at h
        · cases h
        · next rest =>
          cases h
          exact .head (.replace ho (List.mem_of_find?_eq_some found) fun i hi =>
            .corrected there collapsed hi same) (ih rest)

theorem correctPath_edited (there : .correctPath specifier ∈ fixes)
    (h : correctPath p f specifier = .ok (some (f', text))) :
    Edited (Repairing r p.root f.specifier? fixes) f f' := by
  simp only [correctPath, bind, Except.bind] at h
  split at h
  · cases h
  · next new collapsed =>
    split at h
    · cases h
    · split at h
      · cases h
      · next edited replaced =>
        obtain ⟨g, count⟩ := edited
        dsimp only at h
        split at h
        · cases h
        · cases h
          exact replaceSpecifier_edited there collapsed replaced

/-- A fix edits imports, as fixes do. -/
theorem apply_edited (there : fix ∈ fixes) (h : r.apply p f fix = .ok (some (f', text))) :
    Edited (Repairing r p.root f.specifier? fixes) f f' := by
  cases fix with
  | importByName name specifier => exact importByName_edited there h
  | importDefault name specifier => exact importDefault_edited there h
  | addImport name => exact addImport_edited there h
  | correctPath specifier => exact correctPath_edited there h

end ModuleRepair.Repairs
