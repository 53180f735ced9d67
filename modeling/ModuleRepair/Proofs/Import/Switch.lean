import ModuleRepair.Proofs.Import.Binding

/-!
# Switching a named binding to the default one

An import that binds a local name between its braces can bind it by default instead. The binding is
looked for by its local name, whatever the name is under which it is exported; all other bindings
stay as they are (`bindings_switched`). `Switches` says of a list of imports that those concerned
are switched and the others are read as before.
-/
namespace ModuleRepair

/-- The same name, bound by default. -/
def Binding.asDefault (b : Binding) : Binding :=
  { b with kind := .defaultExport, exported := "default", isType := false }

namespace Import

/-- What the first named binding of a local name stands for, if there is one. -/
def boundAs (d : Import) (name : String) : List Binding :=
  ((d.named.find? (·.localName = name)).map d.bindNamed).toList

/-- The declaration with its binding of a local name made the default one, where this can be. -/
def switched (d : Import) (name : String) : Import :=
  (d.namedToDefault? name).getD d

variable {d new : Import} {name : String}

theorem of_mem_boundAs {b : Binding} (h : b ∈ d.boundAs name) :
    b.kind = .namedExport ∧ b.localName = name ∧ b ∈ d.bindings := by
  simp only [boundAs, Option.mem_toList, Option.map_eq_some_iff] at h
  obtain ⟨n, found, rfl⟩ := h
  have same : n.localName = name := by simpa using List.find?_some found
  refine ⟨rfl, same, ?_⟩
  simp only [bindings, List.mem_append, List.mem_map]
  exact .inl (.inl ⟨n, List.mem_of_find?_eq_some found, rfl⟩)

/-- The binding that is switched is the first one of its local name, and nothing else changes. -/
theorem namedToDefault?_eq_some (h : d.namedToDefault? name = some new) :
    given d.defaultName = none ∧ ∃ front b back, d.named = front ++ b :: back ∧
      b.localName = name ∧ (∀ a ∈ front, a.localName ≠ name) ∧
      new = { d with defaultName := some name, named := front ++ back } := by
  unfold namedToDefault? at h
  split at h
  · cases h
  · next free =>
    obtain ⟨b, found, rfl⟩ := Option.map_eq_some_iff.mp h
    obtain ⟨hb, front, back, split, others⟩ := List.find?_eq_some_iff_append.mp found
    have hb : b.localName = name := by simpa using hb
    have others : ∀ a ∈ front, a.localName ≠ name := by simpa using others
    refine ⟨by simpa using free, front, b, back, split, hb, others, ?_⟩
    have left : d.named.eraseP (·.localName = name) = front ++ back := by
      rw [split, List.eraseP_append_right _ (by simpa using others),
        List.eraseP_cons_of_pos (by simpa using hb)]
    rw [left, hb]

theorem boundAs_of_split {front back : List NamedImport} {b : NamedImport}
    (split : d.named = front ++ b :: back) (bound : b.localName = name)
    (others : ∀ a ∈ front, a.localName ≠ name) : d.boundAs name = [d.bindNamed b] := by
  have found : d.named.find? (·.localName = name) = some b :=
    List.find?_eq_some_iff_append.mpr
      ⟨by simpa using bound, front, back, split, by simpa using others⟩
  simp [boundAs, found]

/-- A binding can be switched where there is one and the default one is free. -/
theorem namedToDefault?_isSome_iff : (d.namedToDefault? name).isSome = true ↔
    given d.defaultName = none ∧ d.named.any (·.localName = name) = true := by
  unfold namedToDefault?
  split
  · next default => simp [Option.isSome_iff_ne_none.mp default]
  · next free =>
    have free : given d.defaultName = none := by simpa using free
    rw [Option.isSome_map, List.find?_isSome, List.any_eq_true]
    simp [free]

/-- Of a declaration with the switched binding, all other bindings are those from before. -/
theorem bindings_switched (letters : name ≠ "") (h : d.namedToDefault? name = some new) :
    ∃ rest, d.bindings.Perm (d.boundAs name ++ rest) ∧
      new.bindings.Perm ((d.boundAs name).map (·.asDefault) ++ rest) := by
  obtain ⟨free, front, b, back, split, rfl, others, rfl⟩ := namedToDefault?_eq_some h
  have bound := boundAs_of_split split rfl others
  have default : (d.bindNamed b).asDefault = d.bindDefault b.localName := rfl
  refine ⟨(front ++ back).map d.bindNamed ++ (given d.namespaceName).toList.map d.bindNamespace,
    ?_, ?_⟩
  · simp [bindings, bound, free, split]
  · rw [bound, List.map_singleton, default]
    have parts : ({ d with defaultName := some b.localName, named := front ++ back } :
        Import).bindings = (front ++ back).map d.bindNamed ++ [d.bindDefault b.localName] ++
          (given d.namespaceName).toList.map d.bindNamespace := by
      simp only [bindings, given_some letters, Option.toList_some, List.map_cons, List.map_nil]
      rfl
    rw [parts, List.append_assoc]
    exact List.perm_middle

/-- Switching does not depend on how the names of the declaration are written. -/
theorem namedToDefault?_normal (d : Import) (name : String) :
    (d.normal.namedToDefault? name).map (·.normal) = (d.namedToDefault? name).map (·.normal) := by
  have default : given d.normal.defaultName = given d.defaultName := given_given _
  have found : d.normal.named.find? (·.localName = name) =
      (d.named.find? (·.localName = name)).map (·.normal) := by
    simp only [normal, List.find?_map, Function.comp_def, NamedImport.normal_localName]
  have left : d.normal.named.eraseP (·.localName = name) =
      (d.named.eraseP (·.localName = name)).map (·.normal) := by
    simp [normal, List.eraseP_map, Function.comp_def]
  unfold namedToDefault?
  rw [default, found, left]
  split
  · rfl
  · cases here : d.named.find? (·.localName = name) with
    | none => rfl
    | some b =>
      have some : d.named.isEmpty = false := by
        simpa using List.ne_nil_of_mem (List.mem_of_find?_eq_some here)
      have quote : (if d.quote = "" then "\"" else d.quote) ≠ "" := by split <;> simp_all
      simp [normal, given_given, isSideEffect, some, quote]

end Import

/-! ## Several imports -/

variable {name : String} {ds ds' es cs cs' : List Import}

/-- What is read of imports when those that are concerned are switched. The second list holds
these. -/
inductive Switches (name : String) : List Import → List Import → List Import → Prop
  | nil : Switches name [] [] []
  | kept {d d' : Import} {ds cs ds' : List Import} : d'.normal = d.normal →
      Switches name ds cs ds' → Switches name (d :: ds) cs (d' :: ds')
  | switched {d d' new : Import} {ds cs ds' : List Import} : d.namedToDefault? name = some new →
      d'.normal = new.normal → Switches name ds cs ds' →
      Switches name (d :: ds) (d :: cs) (d' :: ds')

/-- The bindings of imports in which the first binding of a local name has become the default one
wherever an import is concerned. -/
def Switched (name : String) (concerned : List Import) (before after : List Binding) : Prop :=
  ∃ rest, before.Perm (concerned.flatMap (·.boundAs name) ++ rest) ∧
    after.Perm ((concerned.flatMap (·.boundAs name)).map (·.asDefault) ++ rest)

namespace Switches

theorem refl (name : String) (ds : List Import) : Switches name ds [] ds := by
  induction ds with
  | nil => exact .nil
  | cons d ds ih => exact .kept rfl ih

theorem append (h : Switches name ds cs ds') (h' : Switches name es cs' es') :
    Switches name (ds ++ es) (cs ++ cs') (ds' ++ es') := by
  induction h with
  | nil => exact h'
  | kept alike _ ih => exact .kept alike ih
  | switched new alike _ ih => exact .switched new alike ih

/-- One import among others. -/
theorem one {d new : Import} (h : d.namedToDefault? name = some new) (front back : List Import) :
    Switches name (front ++ d :: back) [d] (front ++ [new] ++ back) := by
  rw [List.append_assoc]
  exact (refl name front).append (.switched h rfl (refl name back))

theorem congr (h : Switches name ds cs ds') (alike : es.map (·.normal) = ds'.map (·.normal)) :
    Switches name ds cs es := by
  induction h generalizing es with
  | nil =>
    obtain rfl : es = [] := by simpa using alike
    exact .nil
  | kept same _ ih =>
    obtain ⟨e, es, rfl, here, rest⟩ := List.map_eq_cons_iff.mp alike
    exact .kept (here.trans same) (ih rest)
  | switched new same _ ih =>
    obtain ⟨e, es, rfl, here, rest⟩ := List.map_eq_cons_iff.mp alike
    exact .switched new (here.trans same) (ih rest)

/-- All bindings but those that are switched stay as they are. -/
theorem bindings (letters : name ≠ "") (h : Switches name ds cs ds') :
    Switched name cs (bindingsOf ds) (bindingsOf ds') := by
  have apart (d : Import) (es : List Import) : bindingsOf (d :: es) = d.bindings ++ bindingsOf es :=
    rfl
  induction h with
  | nil => exact ⟨[], .refl _, .refl _⟩
  | @kept d d' ds cs ds' alike _ ih =>
    obtain ⟨rest, before, after⟩ := ih
    refine ⟨d.bindings ++ rest, ?_, ?_⟩
    · rw [apart]
      exact (before.append_left _).trans (List.perm_append_comm_assoc ..)
    · rw [apart, ← Import.normal_bindings d', alike, Import.normal_bindings]
      exact (after.append_left _).trans (List.perm_append_comm_assoc ..)
  | @switched d d' new ds cs ds' converted alike _ ih =>
    obtain ⟨rest, before, after⟩ := ih
    obtain ⟨others, own, own'⟩ := Import.bindings_switched letters converted
    have regroup (a b c e : List Binding) : (a ++ b ++ (c ++ e)).Perm (a ++ c ++ (b ++ e)) := by
      rw [List.append_assoc, List.append_assoc]
      exact (List.perm_append_comm_assoc ..).append_left a
    refine ⟨others ++ rest, ?_, ?_⟩
    · rw [apart, List.flatMap_cons]
      exact (own.append before).trans (regroup ..)
    · rw [apart, ← Import.normal_bindings d', alike, Import.normal_bindings, List.flatMap_cons,
        List.map_append]
      exact (own'.append after).trans (regroup ..)

end Switches

/-- What is switched was a named binding of the local name. -/
theorem of_mem_boundAs (cs : List Import) :
    ∀ b ∈ cs.flatMap (·.boundAs name), b.kind = .namedExport ∧ b.localName = name := by
  intro b hb
  obtain ⟨d, -, hb⟩ := List.mem_flatMap.mp hb
  exact ⟨(Import.of_mem_boundAs hb).1, (Import.of_mem_boundAs hb).2.1⟩

/-! ## All imports of one kind -/

variable {q : Import → Bool}

/-- Imports with those of one kind switched. -/
def switchedWhere (q : Import → Bool) (name : String) (ds : List Import) : List Import :=
  ds.map fun d => if q d then d.switched name else d

theorem switches_where (may : ∀ d ∈ ds, q d = true → (d.namedToDefault? name).isSome = true) :
    Switches name ds (ds.filter q) (switchedWhere q name ds) := by
  induction ds with
  | nil => exact .nil
  | cons d ds ih =>
    obtain ⟨here, later⟩ := List.forall_mem_cons.mp may
    have rest := ih later
    cases hq : q d with
    | false =>
      rw [List.filter_cons_of_neg (by simp [hq]), switchedWhere, List.map_cons, hq]
      exact .kept rfl rest
    | true =>
      obtain ⟨new, converted⟩ := Option.isSome_iff_exists.mp (here hq)
      rw [List.filter_cons_of_pos hq, switchedWhere, List.map_cons, hq]
      exact .switched converted (by simp [Import.switched, converted]) rest

end ModuleRepair
