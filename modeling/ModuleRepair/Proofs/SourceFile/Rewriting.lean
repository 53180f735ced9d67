import ModuleRepair.BuildLog.Repair
import ModuleRepair.Export.Normalize
import ModuleRepair.Proofs.Diagnostic.Edited
import ModuleRepair.Proofs.Import.Clause
import ModuleRepair.SourceFile.Organize

/-!
# How modules are rewritten

Whatever a pass does to one module is a list of rewritings, each of the module as it is then. All of
them but the conversion of default exports write possible import clauses.
-/
namespace ModuleRepair

open ModuleRepair.Script Relation

namespace SourceFile

/-- One change of a module. An import is replaced by others of a kind; those that go with it are
taken away first. -/
inductive Rewriting (writes : Import → List Import → Prop) (f : SourceFile) : SourceFile → Prop
  | replaced {o : Outline} {d : Import} {gone new : List Import} : f.outline = .ok o →
      d ∈ o.imports → gone ⊆ o.imports → writes d new →
      Rewriting writes f ((gone.foldr (fun d f => f.removeImport d) f).replaceImport d new)
  | added {d : Import} {g : SourceFile} : given d.namespaceName = none → f.addImport d = .ok g →
      Rewriting writes f g
  | exported {name : String} {g : SourceFile} : f.markExported name = .ok (some g) →
      Rewriting writes f g
  | withoutDefault {g : SourceFile} : f.removeDefaultExport = .ok (some g) → Rewriting writes f g

/-- What every pass but one writes: possible clauses. -/
def WritesClauses (_ : Import) (new : List Import) : Prop :=
  ∀ e ∈ new, e.IsClause

/-- What the conversion of default exports writes: the same import with its default name in
braces. -/
def WritesByName (d : Import) (new : List Import) : Prop :=
  ∃ name, d.defaultName = some name ∧ new = [d.defaultToNamed name]

variable {writes : Import → List Import → Prop} {f g : SourceFile} {o : Outline} {d : Import}

theorem isClause_of_outline (ho : f.outline = .ok o) (hd : d ∈ o.imports) : d.IsClause := by
  cases hr : f.read with
  | error e => simp [outline, hr, bind, Except.bind] at ho
  | ok read =>
    cases read with
    | none =>
      simp only [outline, hr, bind, Except.bind] at ho
      cases ho
      cases hd
    | some o' =>
      obtain rfl : o' = o := by simpa [outline_of_read hr] using ho
      exact (parsed_of_read hr d hd).isClause

theorem Rewriting.replace {new : List Import} (ho : f.outline = .ok o) (hd : d ∈ o.imports)
    (fits : writes d new) : Rewriting writes f (f.replaceImport d new) :=
  .replaced ho hd (List.nil_subset _) fits

theorem Rewriting.mono {writes' : Import → List Import → Prop}
    (weaker : ∀ d new, writes d new → writes' d new) (h : Rewriting writes f g) :
    Rewriting writes' f g := by
  cases h with
  | replaced ho hd gone fits => exact .replaced ho hd gone (weaker _ _ fits)
  | added noNamespace added => exact .added noNamespace added
  | exported marked => exact .exported marked
  | withoutDefault removed => exact .withoutDefault removed

theorem Rewriting.path (h : Rewriting writes f g) : g.path = f.path := by
  cases h with
  | @replaced o d gone new ho hd inside fits =>
    clear inside
    change (gone.foldr (fun d f => f.removeImport d) f).path = f.path
    induction gone with
    | nil => rfl
    | cons d gone ih => exact ih
  | added _ added => exact (addImport_path added).1
  | exported marked =>
    simp only [markExported, bind, Except.bind] at marked
    split at marked
    · cases marked
    · split at marked
      · cases marked
      · split at marked <;> cases marked
        rfl
  | withoutDefault removed =>
    simp only [removeDefaultExport, bind, Except.bind] at removed
    split at removed
    · cases removed
    · obtain ⟨d, -, rfl⟩ := Option.map_eq_some_iff.mp (Except.ok.inj removed)
      rfl

theorem path_of_rewritings (h : ReflTransGen (Rewriting writes) f g) : g.path = f.path := by
  induction h with
  | refl => rfl
  | tail _ step ih => exact step.path.trans ih

/-! ## Organizing -/

theorem mergeOnce?_rewrites (ho : f.outline = .ok o) (h : f.mergeOnce? o = some g) :
    Rewriting WritesClauses f g := by
  unfold mergeOnce? at h
  split at h
  · next first rest found =>
    obtain rfl := Option.some.inj h
    obtain ⟨key, -, group⟩ := List.mem_map.mp (List.mem_of_find?_eq_some found)
    have members : ∀ d ∈ first :: rest, d ∈ o.imports ∧ isMergeable d = true := by
      intro d hd
      rw [← group] at hd
      exact List.mem_filter.mp (List.mem_filter.mp hd).1
    have noNamespace : given first.namespaceName = none := by
      have mergeable := (members first List.mem_cons_self).2
      simp only [isMergeable, Bool.and_eq_true, Option.isNone_iff_eq_none] at mergeable
      exact mergeable.1.1
    refine .replaced ho (members first List.mem_cons_self).1 (fun d hd => ?_) ?_
    · exact (members d (List.mem_cons_of_mem first hd)).1
    · exact List.forall_mem_singleton.mpr (.inl noNamespace)
  · cases h

theorem mergeAll_rewrites {n : Nat} (h : mergeAll n f = .ok g) :
    ReflTransGen (Rewriting WritesClauses) f g := by
  induction n generalizing f with
  | zero =>
    obtain rfl := Except.ok.inj h
    exact .refl
  | succ n ih =>
    simp only [mergeAll, bind, Except.bind] at h
    split at h
    · cases h
    · next o ho =>
      split at h
      · next merged once => exact .head (mergeOnce?_rewrites ho once) (ih h)
      · obtain rfl := Except.ok.inj h
        exact .refl

theorem sortFrom_rewrites {n position : Nat} (h : sortFrom n position f = .ok g) :
    ReflTransGen (Rewriting WritesClauses) f g := by
  induction n generalizing f position with
  | zero =>
    obtain rfl := Except.ok.inj h
    exact .refl
  | succ n ih =>
    simp only [sortFrom, bind, Except.bind] at h
    split at h
    · cases h
    · next o ho =>
      split at h
      · obtain rfl := Except.ok.inj h
        exact .refl
      · next d there =>
        have hd := List.mem_of_getElem? there
        split at h
        · exact ih h
        · refine .head (.replace ho hd ?_) (ih h)
          exact List.forall_mem_singleton.mpr (Import.isClause_sorted (isClause_of_outline ho hd))

theorem organize_rewrites (h : f.organize = .ok g) :
    ReflTransGen (Rewriting WritesClauses) f g := by
  simp only [organize, bind, Except.bind] at h
  split at h
  · cases h
  · split at h
    · cases h
    · next merged merging =>
      split at h
      · cases h
      · exact (mergeAll_rewrites merging).trans (sortFrom_rewrites h)

/-! ## Default exports -/

theorem exportByName_rewrites {name : String} (h : Normalize.exportByName f name = .ok g) :
    ReflTransGen (Rewriting writes) f g := by
  simp only [Normalize.exportByName, bind, Except.bind] at h
  split at h
  · cases h
  · next marked? marking =>
    have first : ReflTransGen (Rewriting writes) f (marked?.getD f) := by
      cases marked? with
      | none => exact .refl
      | some marked => exact .single (.exported marking)
    split at h
    · cases h
    · next removed? removing =>
      obtain rfl := Except.ok.inj h
      cases removed? with
      | none => exact first
      | some removed => exact first.tail (.withoutDefault removing)

theorem rewriteDefaults_rewrites {p : Project} {target name : String} {n count : Nat}
    (h : p.rewriteDefaults target name n f = .ok (g, count)) :
    ReflTransGen (Rewriting WritesByName) f g := by
  induction n generalizing f count with
  | zero =>
    cases h
    exact .refl
  | succ n ih =>
    simp only [Project.rewriteDefaults, bind, Except.bind] at h
    split at h
    · cases h
    · next o ho =>
      split at h
      · cases h
        exact .refl
      · next d found =>
        have bound : d.defaultName = some name := by
          have fits := List.find?_some found
          simp only [Project.importsDefault, Bool.and_eq_true, decide_eq_true_eq] at fits
          exact fits.1
        split at h
        · cases h
        · next rest =>
          cases h
          exact .head (.replace ho (List.mem_of_find?_eq_some found) ⟨name, bound, rfl⟩) (ih rest)

/-! ## Reported imports -/

theorem rewriteMismatch_rewrites {p : Project} {m : Mismatch} {defining : String} {n count : Nat}
    (h : p.rewriteMismatch m defining n f = .ok (g, count)) :
    ReflTransGen (Rewriting WritesClauses) f g := by
  induction n generalizing f count with
  | zero =>
    cases h
    exact .refl
  | succ n ih =>
    simp only [Project.rewriteMismatch, bind, Except.bind] at h
    split at h
    · cases h
    · next o ho =>
      split at h
      · cases h
        exact .refl
      · next d found =>
        have hd := List.mem_of_find?_eq_some found
        split at h
        · cases h
          exact .refl
        · next new converted =>
          split at h
          · cases h
          · next rest =>
            cases h
            refine .head (.replace ho hd ?_) (ih rest)
            exact List.forall_mem_singleton.mpr
              (Import.isClause_namedToDefault? (isClause_of_outline ho hd) converted)

end SourceFile

namespace Repairs

open SourceFile

variable {r : Repairs} {root : AliasRoot} {own : Option String} {fixes : List Fix}

theorem offered?_namespaceName {name : String} {d : Import} (h : r.offered? own name = some d) :
    given d.namespaceName = none := by
  have fresh (specifier : String) (isDefault : Bool) :
      given (importOf name specifier isDefault).namespaceName = none := by
    cases isDefault <;> rfl
  unfold offered? at h
  split at h
  · obtain rfl := Option.some.inj h
    exact fresh ..
  · obtain ⟨e, -, rfl⟩ := Option.map_eq_some_iff.mp h
    exact fresh ..

/-- What a fix writes in place of a possible clause is possible, and so is what it adds. -/
theorem repairing_rewrites {f g : SourceFile} (h : EditStep (Repairing r root own fixes) f g) :
    Rewriting WritesClauses f g := by
  obtain ⟨o, e, ho, allowed, he⟩ := h
  have replace {i : Nat} {d : Import} {new : List Import} (hd : o.imports[i]? = some d)
      (he : (Edit.replace i new).file f o = .ok g) (fits : d.IsClause → ∀ e ∈ new, e.IsClause) :
      Rewriting WritesClauses f g := by
    simp only [Edit.file, hd, Option.map_some, Option.getD_some] at he
    obtain rfl := Except.ok.inj he
    have there := List.mem_of_getElem? hd
    exact .replace ho there (fits (isClause_of_outline ho there))
  cases allowed with
  | byName _ hd _ _ => exact replace hd he fun fits => isClause_bindByName fits _
  | byDefault _ hd _ new =>
    exact replace hd he fun fits =>
      List.forall_mem_singleton.mpr (Import.isClause_namedToDefault? fits new)
  | added _ _ offered => exact .added (offered?_namespaceName offered) he
  | corrected _ _ hd _ => exact replace hd he fun fits => List.forall_mem_singleton.mpr fits

end Repairs

end ModuleRepair
