import ModuleRepair.Proofs.Diagnostic.Rebind
import ModuleRepair.Proofs.Import.Order
import ModuleRepair.Proofs.Import.Switch
import ModuleRepair.Proofs.Script.Parsed

/-!
# Conversions of one import

Each rewriting of an import by a fix converts the binding that it is meant for and keeps the others.
-/
namespace ModuleRepair

variable {d : Import} {name : String}

/-- The names between the braces of an import, and its default name. -/
theorem named_nodup (h : d.localNames.Nodup) :
    (d.named.map (·.localName) ++ (given d.defaultName).toList).Nodup :=
  h.sublist (List.sublist_append_left ..)

namespace Import

theorem bindings_perm {x : String} (hx : given d.defaultName = some x) :
    d.bindings.Perm (d.bindDefault x ::
      (d.named.map d.bindNamed ++ (given d.namespaceName).toList.map d.bindNamespace)) := by
  simp [bindings, hx]

/-- The default binding becomes a named one. -/
theorem bindings_defaultToNamed {x : String} (hx : given d.defaultName = some x)
    (h : d.localNames.Nodup) (name : String) :
    (d.defaultToNamed name).bindings.Perm
      ({ d.bindDefault x with kind := .namedExport, exported := name } ::
        (d.named.map d.bindNamed ++ (given d.namespaceName).toList.map d.bindNamespace)) := by
  let b : NamedImport := ⟨name, (given (some x)).filter (· ≠ name), false⟩
  have local_b : b.localName = x := NamedImport.localName_renamed (given_ne_empty hx) name
  have names : ((d.named ++ [b]).map (·.localName)).Nodup := by
    have := named_nodup h
    rw [hx] at this
    simpa [local_b] using this
  have bound : d.bindNamed b =
      { d.bindDefault x with kind := .namedExport, exported := name } := by
    simp only [bindNamed, bindDefault, local_b]
    rfl
  have bindings : (d.defaultToNamed name).bindings =
      (sortNamed (d.named ++ [b])).map d.bindNamed ++
        (given d.namespaceName).toList.map d.bindNamespace := by
    simp only [defaultToNamed, withNamed, Import.bindings, hx, Option.getD_some, given_none,
      Option.toList_none, List.map_nil, List.append_nil]
    rfl
  have sorted := ((sortNamed_perm_self names).map d.bindNamed).append_right
    ((given d.namespaceName).toList.map d.bindNamespace)
  rw [bindings, ← bound]
  refine sorted.trans ?_
  simp

/-- A named binding becomes the default one. -/
theorem bindings_namedToDefault? {new : Import} (hn : name ≠ "")
    (h : d.namedToDefault? name = some new) :
    ∃ b ∈ d.named, b.localName = name ∧ ∃ rest, d.bindings.Perm (d.bindNamed b :: rest) ∧
      new.bindings.Perm ({ d.bindNamed b with
        kind := .defaultExport, exported := "default", isType := false } :: rest) := by
  obtain ⟨-, front, b, back, split, bound, others, -⟩ := namedToDefault?_eq_some h
  obtain ⟨rest, before, after⟩ := bindings_switched hn h
  rw [boundAs_of_split split bound others] at before after
  exact ⟨b, by simp [split], bound, rest, before, after⟩

/-- Another specifier is the specifier of all bindings. -/
theorem bindings_withSpecifier (d : Import) (specifier : String) :
    ({ d with specifier } : Import).bindings =
      d.bindings.map fun b => { b with specifier } := by
  simp only [bindings, List.map_append, List.map_map]
  rfl

theorem specifier_of_mem {b : Binding} (h : b ∈ d.bindings) : b.specifier = d.specifier := by
  simp only [bindings, List.mem_append, List.mem_map] at h
  rcases h with (⟨_, -, rfl⟩ | ⟨_, -, rfl⟩) | ⟨_, -, rfl⟩ <;> rfl

end Import

theorem bindingsOf_correct_of_ne {old new : String} {ds : List Import}
    (h : ∀ d ∈ ds, d.specifier ≠ old) :
    (bindingsOf ds).map (Binding.correct old new) = bindingsOf ds := by
  conv => rhs; rw [← List.map_id (bindingsOf ds)]
  refine List.map_congr_left fun b hb => ?_
  obtain ⟨d, hd, hb⟩ := List.mem_flatMap.mp hb
  exact if_neg (Import.specifier_of_mem hb ▸ h d hd)

/-- Correcting one import first changes nothing for those that are corrected later. -/
theorem bindingsOf_correct {new : String} (h : new ≠ d.specifier) (front back : List Import) :
    (bindingsOf (front ++ [{ d with specifier := new }] ++ back)).map
        (Binding.correct d.specifier new) =
      (bindingsOf (front ++ [d] ++ back)).map (Binding.correct d.specifier new) := by
  have here : d.bindings.map (Binding.correct d.specifier new) =
      ({ d with specifier := new } : Import).bindings := by
    refine Eq.trans ?_ (Import.bindings_withSpecifier d new).symm
    exact List.map_congr_left fun b hb => if_pos (Import.specifier_of_mem hb)
  have again : (bindingsOf [{ d with specifier := new }]).map (Binding.correct d.specifier new) =
      bindingsOf [{ d with specifier := new }] := bindingsOf_correct_of_ne (by simpa using h)
  rw [bindingsOf_singleton] at again
  simp only [bindingsOf_append, bindingsOf_singleton, List.map_append, again, here]

/-- A namespace keeps a declaration of its own when the default binding next to it becomes a named
one. -/
theorem bindings_bindByName {x : String} (parsed : d.Parsed) (hx : d.defaultName = some x)
    (h : d.localNames.Nodup) (name : String) : ∃ rest,
      d.bindings.Perm (d.bindDefault x :: rest) ∧
      (bindingsOf (Repairs.bindByName d name)).Perm
        ({ d.bindDefault x with kind := .namedExport, exported := name } :: rest) := by
  have there : given d.defaultName = some x := by rw [parsed.given_defaultName, hx]
  refine ⟨_, Import.bindings_perm there, ?_⟩
  unfold Repairs.bindByName
  split
  · next hasNamespace =>
    have named : d.named = [] := parsed.clause.resolve_left fun none => by
      simp [none, given_none] at hasNamespace
    have alone : ({ d with defaultName := none } : Import).bindings =
        (given d.namespaceName).toList.map d.bindNamespace := by
      simp only [Import.bindings, named, given_none, List.map_nil, Option.toList_none,
        List.nil_append]
      rfl
    have names : ({ d with namespaceName := none } : Import).localNames.Nodup := by
      simp [Import.localNames, named, there, given_none]
    have converted : (Import.defaultToNamed { d with namespaceName := none } name).bindings.Perm
        [{ d.bindDefault x with kind := .namedExport, exported := name }] :=
      (Import.bindings_defaultToNamed (d := { d with namespaceName := none }) there names name).trans
        (by simp [named, given_none, Import.bindDefault])
    have both : bindingsOf [{ d with defaultName := none },
        Import.defaultToNamed { d with namespaceName := none } name] =
        ({ d with defaultName := none } : Import).bindings ++
          (Import.defaultToNamed { d with namespaceName := none } name).bindings := by
      simp [bindingsOf]
    rw [both, alone]
    refine (converted.append_left _).trans ?_
    rw [named]
    exact List.perm_append_comm
  · simpa [bindingsOf] using Import.bindings_defaultToNamed there h name

end ModuleRepair
