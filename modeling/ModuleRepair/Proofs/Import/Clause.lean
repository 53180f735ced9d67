import ModuleRepair.Diagnostic.Repair
import ModuleRepair.Proofs.Import.Switch
import ModuleRepair.Proofs.Script.Parsed

/-!
# Possible import clauses

An import clause has room for a namespace or for braces, not for both. Rewriting an import keeps its
clause possible, with one exception: a default binding that is put into braces where a namespace
stands (`Import.isClause_defaultToNamed`).
-/
namespace ModuleRepair

open ModuleRepair.Script

namespace Import

/-- The declaration can be written: a namespace and named bindings exclude each other. -/
def IsClause (d : Import) : Prop :=
  given d.namespaceName = none ∨ d.named = []

instance (d : Import) : Decidable d.IsClause :=
  inferInstanceAs (Decidable (_ ∨ _))

variable {d : Import}

theorem Parsed.isClause (h : d.Parsed) : d.IsClause :=
  h.clause.imp_left fun none => by rw [none, given_none]

theorem sortNamed_append_singleton_ne_nil (named : List NamedImport) (b : NamedImport) :
    sortNamed (named ++ [b]) ≠ [] := by
  intro none
  have empty : distinct (named ++ [b]) = [] := (none ▸ sortNamed_perm (named ++ [b])).symm.eq_nil
  cases named <;> simp [distinct] at empty

/-- A default binding is put into braces, and a namespace stays where it is. -/
theorem isClause_defaultToNamed (d : Import) (name : String) :
    (d.defaultToNamed name).IsClause ↔ given d.namespaceName = none :=
  or_iff_left (sortNamed_append_singleton_ne_nil _ _)

theorem isClause_namedToDefault? (h : d.IsClause) {localName : String} {new : Import}
    (converted : d.namedToDefault? localName = some new) : new.IsClause := by
  obtain ⟨-, front, b, back, split, -, -, rfl⟩ := namedToDefault?_eq_some converted
  exact h.imp_right fun none => by simp [none] at split

theorem isClause_sorted (h : d.IsClause) :
    ({ d with named := sortNamed d.named } : Import).IsClause :=
  h.imp_right fun none => by simp [none, sortNamed, distinct]

end Import

namespace Repairs

variable {d : Import}

/-- A default binding and a namespace go into two declarations. -/
theorem isClause_bindByName (h : d.IsClause) (name : String) :
    ∀ e ∈ bindByName d name, e.IsClause := by
  unfold bindByName
  split
  · refine List.forall_mem_cons.mpr ⟨h, List.forall_mem_singleton.mpr ?_⟩
    exact (Import.isClause_defaultToNamed _ name).mpr given_none
  · next noNamespace =>
    refine List.forall_mem_singleton.mpr ((Import.isClause_defaultToNamed d name).mpr ?_)
    simpa using noNamespace

end Repairs

end ModuleRepair
