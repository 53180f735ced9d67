import ModuleRepair.Proofs.Import.Order
import ModuleRepair.Proofs.Import.Switch

/-!
# A default binding made a named one and back

Putting a default binding between the braces and taking it out again gives the declaration back,
with its named bindings in order (`defaultToNamed_cancels`). The binding is found again by its local
name, which no other binding has; what is left of a list in order is in order.
-/
namespace ModuleRepair

namespace NamedImport

/-- A binding of an exported name under a local one, which is only written where it differs. -/
def under (name localName : String) : NamedImport :=
  ⟨name, (given (some localName)).filter (· ≠ name), false⟩

theorem under_localName {localName : String} (letters : localName ≠ "") (name : String) :
    (under name localName).localName = localName :=
  localName_renamed letters name

end NamedImport

namespace Import

variable {d : Import} {x : String}

theorem defaultToNamed_eq (bound : given d.defaultName = some x) (name : String) :
    d.defaultToNamed name =
      { d with defaultName := none, named := sortNamed (d.named ++ [.under name x]) } := by
  simp only [defaultToNamed, withNamed, bound, Option.getD_some, NamedImport.under]

/-- The names between the braces, with the default one among them, are still distinct. -/
theorem nodup_under (bound : given d.defaultName = some x) (distinct : d.localNames.Nodup)
    (name : String) :
    ((d.named ++ [NamedImport.under name x]).map (·.localName)).Nodup := by
  have front : (d.named.map (·.localName) ++ [x]).Nodup := by
    rw [localNames, bound] at distinct
    exact (List.nodup_append.mp distinct).1
  simpa [NamedImport.under_localName (given_ne_empty bound)] using front

/-- What is left of sorted bindings when one of them is taken out, is sorted. -/
theorem sortNamed_without {named front back : List NamedImport} {b : NamedImport}
    (distinct : ((named ++ [b]).map (·.localName)).Nodup)
    (split : sortNamed (named ++ [b]) = front ++ b :: back) :
    front ++ back = sortNamed named := by
  have less : (front ++ back).Sublist (sortNamed (named ++ [b])) := by
    rw [split]
    exact (List.sublist_cons_self b back).append_left front
  have order : (front ++ back).Pairwise fun a b => a.mayPrecede b = true :=
    (sortNamed_pairwise _).sublist less
  have names : ((front ++ back).map (·.localName)).Nodup :=
    (sortNamed_localNames _).sublist (less.map _)
  have same : (front ++ back).Perm named := by
    have whole : (front ++ b :: back).Perm (named ++ [b]) := split ▸ sortNamed_perm_self distinct
    have atFront : (b :: (front ++ back)).Perm (b :: named) :=
      (List.perm_middle.symm.trans whole).trans (List.perm_append_singleton b named)
    exact atFront.cons_inv
  rw [← sortNamed_eq_self order names]
  exact sortNamed_congr names same

/-- Back from a named binding: the one of the local name is taken out again. -/
theorem namedToDefault?_defaultToNamed (bound : given d.defaultName = some x)
    (distinct : d.localNames.Nodup) (name : String) :
    (d.defaultToNamed name).namedToDefault? x = some { d with named := sortNamed d.named } := by
  have nodup := nodup_under bound distinct name
  have local_x := NamedImport.under_localName (given_ne_empty bound) name
  have there : NamedImport.under name x ∈ sortNamed (d.named ++ [.under name x]) :=
    (sortNamed_perm_self nodup).mem_iff.mpr (by simp)
  have converts : ((d.defaultToNamed name).namedToDefault? x).isSome = true := by
    rw [namedToDefault?_isSome_iff, defaultToNamed_eq bound, List.any_eq_true]
    exact ⟨rfl, _, there, decide_eq_true local_x⟩
  obtain ⟨new, converted⟩ := Option.isSome_iff_exists.mp converts
  obtain ⟨-, front, b, back, split, hb, -, rfl⟩ := namedToDefault?_eq_some converted
  rw [defaultToNamed_eq bound] at split converted ⊢
  change sortNamed (d.named ++ [.under name x]) = front ++ b :: back at split
  have taken : b = NamedImport.under name x := by
    refine eq_of_localName (sortNamed_localNames _) ?_ there (hb.trans local_x.symm)
    rw [split]
    exact List.mem_append_right front List.mem_cons_self
  subst taken
  have defaultName : d.defaultName = some x := (Option.filter_eq_some_iff.mp bound).1
  rw [converted, sortNamed_without nodup split, ← defaultName]

/-- For every declaration with a default binding whose local names are distinct, and for every
exported name: the default binding becomes a named one of that name under the same local name,
among the others in order; and made the default one again, it leaves the declaration as it was, but
for the order of its named bindings. -/
theorem defaultToNamed_cancels (bound : given d.defaultName = some x)
    (distinct : d.localNames.Nodup) (name : String) :
    let new := d.defaultToNamed name
    new.defaultName = none ∧ new.localNames.Perm d.localNames ∧
      new.named.Pairwise (fun a b => a.key < b.key) ∧
      (∃ b : NamedImport, b.name = name ∧ b.localName = x ∧ b.isType = false ∧
        new.named.Perm (b :: d.named)) ∧
      new.namedToDefault? x = some { d with named := sortNamed d.named } := by
  intro new
  have nodup := nodup_under bound distinct name
  have local_x := NamedImport.under_localName (given_ne_empty bound) name
  have new_eq : new = _ := defaultToNamed_eq bound name
  have named : new.named.Perm (d.named ++ [.under name x]) := by
    rw [new_eq]
    exact sortNamed_perm_self nodup
  refine ⟨rfl, ?_, sortNamed_increasing _, ⟨.under name x, rfl, local_x, rfl, ?_⟩,
    namedToDefault?_defaultToNamed bound distinct name⟩
  · have names : (new.named.map (·.localName)).Perm (d.named.map (·.localName) ++ [x]) := by
      simpa [local_x] using named.map (·.localName)
    have parts : new.localNames =
        new.named.map (·.localName) ++ (given d.namespaceName).toList := by
      rw [new_eq]
      simp [localNames, given_none]
    rw [parts, localNames, bound]
    exact names.append_right _
  · exact named.trans (List.perm_append_singleton _ _)

end Import

/-- An import with a default binding and named ones in no order. -/
def headerImport : Import where
  specifier := "./header"
  defaultName := some "Hdr"
  named := [⟨"menu", some "Bar", false⟩, ⟨"Logo", none, true⟩, ⟨"Menu", none, false⟩]
  quote := "\x27"
  semicolon := false
  span := ⟨4, 60⟩

theorem headerImport_cancels : given headerImport.defaultName = some "Hdr" ∧
    headerImport.localNames.Nodup ∧
    let new := headerImport.defaultToNamed "Header"
    new.defaultName = none ∧ new.localNames.Perm headerImport.localNames ∧
      new.named.Pairwise (fun a b => a.key < b.key) ∧
      (∃ b : NamedImport, b.name = "Header" ∧ b.localName = "Hdr" ∧ b.isType = false ∧
        new.named.Perm (b :: headerImport.named)) ∧
      new.namedToDefault? "Hdr" =
        some { headerImport with named := sortNamed headerImport.named } :=
  ⟨rfl, by decide, Import.defaultToNamed_cancels (d := headerImport) rfl (by decide) "Header"⟩

end ModuleRepair
