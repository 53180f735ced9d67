import ModuleRepair.Proofs.Distinct
import ModuleRepair.Proofs.Import.Order
import ModuleRepair.SourceFile.Organize

/-!
# Merging without loss

One declaration takes the place of a group of declarations that can be merged. It binds what the
group has bound, and the imports that cannot be merged stay.
-/
namespace ModuleRepair.SourceFile

/-- A declaration as it is read back, with its named bindings in order. -/
def inOrder (d : Import) : Import :=
  { d.normal with named := sortNamed d.normal.named }

/-- The imports that are never merged: side effects, namespaces, and those with attributes. -/
def unmergeable (ds : List Import) : List Import :=
  ds.filter (!isMergeable ·)

/-- Two lists of imports that mean the same. -/
structure SameMeaning (ds ds' : List Import) : Prop where
  bindings : (bindingsOf ds').Perm (bindingsOf ds)
  unmergeable : (unmergeable ds').map inOrder = (unmergeable ds).map inOrder
  /-- Modules are first loaded in the same order. -/
  specifiers : (ds'.map (·.specifier)).eraseDups = (ds.map (·.specifier)).eraseDups

namespace SameMeaning

variable {a b c : List Import}

theorem trans (h : SameMeaning a b) (h' : SameMeaning b c) : SameMeaning a c :=
  ⟨h'.bindings.trans h.bindings, h'.unmergeable.trans h.unmergeable,
    h'.specifiers.trans h.specifiers⟩

theorem names (h : SameMeaning a b) : (namesOf b).Perm (namesOf a) := by
  simpa only [bindingsOf_localName] using h.bindings.map (·.localName)

end SameMeaning

@[simp] theorem isMergeable_normal (d : Import) : isMergeable d.normal = isMergeable d := by
  rw [isMergeable, Import.normal_isSideEffect, isMergeable]
  simp only [Import.normal, given_given]

/-- Declarations that are read back alike mean the same. -/
theorem sameMeaning_of_normal {ds ds' : List Import}
    (h : ds'.map (·.normal) = ds.map (·.normal)) : SameMeaning ds ds' := by
  have kept : ∀ ds : List Import, (unmergeable ds).map inOrder =
      (unmergeable (ds.map (·.normal))).map inOrder := by
    intro ds
    simp [unmergeable, List.filter_map, Function.comp_def, inOrder]
  have specifiers : ∀ ds : List Import,
      ds.map (·.specifier) = (ds.map (·.normal)).map (·.specifier) := by
    intro ds
    simp [Function.comp_def]
  refine ⟨?_, ?_, ?_⟩
  · rw [← bindingsOf_normal, h, bindingsOf_normal]
  · rw [kept, h, ← kept]
  · rw [specifiers, h, ← specifiers]

/-! ## Groups -/

theorem perm_regroup (a b c d : List Binding) :
    ((a ++ b) ++ (c ++ d)).Perm ((a ++ c) ++ (b ++ d)) := by
  have inner : (b ++ (c ++ d)).Perm (c ++ (b ++ d)) := by
    rw [← List.append_assoc, ← List.append_assoc]
    exact List.perm_append_comm.append_right d
  simpa only [List.append_assoc] using inner.append_left a

/-- The bindings of declarations that share a key with one of them and have no namespaces, sorted by
their kind. -/
theorem bindingsOf_group {first : Import} {ds : List Import}
    (h : ∀ d ∈ ds, mergeKey d = mergeKey first ∧ given d.namespaceName = none) :
    (bindingsOf ds).Perm ((ds.flatMap (·.named)).map first.bindNamed ++
      (ds.filterMap fun d => given d.defaultName).map first.bindDefault) := by
  induction ds with
  | nil => exact .nil
  | cons d ds ih =>
    obtain ⟨key, noNamespace⟩ := h d List.mem_cons_self
    simp only [mergeKey, Prod.mk.injEq] at key
    have here : d.bindings = d.named.map first.bindNamed ++
        (given d.defaultName).toList.map first.bindDefault := by
      have named : d.bindNamed = first.bindNamed := by
        funext b; simp [Import.bindNamed, key]
      have default : d.bindDefault = first.bindDefault := by
        funext name; simp [Import.bindDefault, key]
      simp [Import.bindings, noNamespace, named, default]
    have defaults : (d :: ds).filterMap (fun d => given d.defaultName) =
        (given d.defaultName).toList ++ ds.filterMap fun d => given d.defaultName := by
      cases hd : given d.defaultName <;> simp [hd]
    have rest := ih fun d hd => h d (List.mem_cons_of_mem _ hd)
    rw [defaults, List.flatMap_cons, List.map_append, List.map_append]
    refine List.Perm.trans ?_ (perm_regroup ..)
    rw [← here]
    exact rest.append_left d.bindings

theorem findSome?_of_length {ds : List Import}
    (h : (ds.filterMap fun d => given d.defaultName).length ≤ 1) :
    (ds.findSome? fun d => given d.defaultName).toList =
      ds.filterMap fun d => given d.defaultName := by
  induction ds with
  | nil => rfl
  | cons d ds ih =>
    cases hd : given d.defaultName with
    | none => simpa [hd] using ih (by simpa [hd] using h)
    | some name => simpa [hd] using h

/-- Merging a group keeps what it binds. -/
theorem bindings_merge {first : Import} {rest : List Import}
    (h : ∀ d ∈ first :: rest, isMergeable d = true ∧ mergeKey d = mergeKey first)
    (can : canMerge (first :: rest) = true) (hn : (namesOf (first :: rest)).Nodup) :
    (Import.merge first rest).bindings.Perm (bindingsOf (first :: rest)) := by
  have noNamespace : ∀ d ∈ first :: rest, given d.namespaceName = none := by
    intro d hd
    have := (h d hd).1
    simp only [isMergeable, Bool.and_eq_true, Option.isNone_iff_eq_none] at this
    exact this.1.1
  have group := bindingsOf_group fun d hd => ⟨(h d hd).2, noNamespace d hd⟩
  have names : (((first :: rest).flatMap (·.named)).map (·.localName) ++
      (first :: rest).filterMap fun d => given d.defaultName).Nodup := by
    have all := (group.map (·.localName)).nodup (by rwa [bindingsOf_localName])
    simpa [Function.comp_def, Import.bindNamed, Import.bindDefault] using all
  rw [List.nodup_append] at names
  have one : ((first :: rest).filterMap fun d => given d.defaultName).length ≤ 1 := by
    simp only [canMerge, Bool.and_eq_true, decide_eq_true_eq] at can
    rw [← eraseDups_of_nodup names.2.1]
    exact can.2
  have default := findSome?_of_length one
  have there : given ((first :: rest).findSome? fun d => given d.defaultName) =
      (first :: rest).findSome? fun d => given d.defaultName := by
    cases found : (first :: rest).findSome? fun d => given d.defaultName with
    | none => rfl
    | some name =>
      obtain ⟨d, -, hd⟩ := List.exists_of_findSome?_eq_some found
      exact given_some (given_ne_empty hd)
  have bindings : (Import.merge first rest).bindings =
      (sortNamed ((first :: rest).flatMap (·.named))).map first.bindNamed ++
        ((first :: rest).filterMap fun d => given d.defaultName).map first.bindDefault := by
    rw [← default, Import.bindings, Import.merge]
    simp only [noNamespace first List.mem_cons_self, there, Option.toList_none, List.map_nil,
      List.append_nil]
    rfl
  rw [bindings]
  exact (((sortNamed_perm_self names.1).map _).append_right _).trans group.symm

/-- Whether a declaration can be merged into another one. -/
def joins (first d : Import) : Bool :=
  isMergeable d && mergeKey d = mergeKey first

/-- The group that is merged consists of all declarations that join its first one. -/
theorem group_of_find? {ds : List Import} {first : Import} {rest : List Import}
    (h : (mergeGroups (ds.filter isMergeable)).find? canMerge = some (first :: rest)) :
    canMerge (first :: rest) = true ∧ ds.filter (joins first) = first :: rest := by
  refine ⟨List.find?_some h, ?_⟩
  have group := List.mem_of_find?_eq_some h
  simp only [mergeGroups, List.mem_map] at group
  obtain ⟨key, -, group⟩ := group
  have first_mem : first ∈ (ds.filter isMergeable).filter (mergeKey · = key) := by simp [group]
  obtain rfl : mergeKey first = key := by simpa using (List.mem_filter.mp first_mem).2
  rw [← group, List.filter_filter]
  exact List.filter_congr fun d _ => Bool.and_comm ..

/-- Declarations whose specifiers occur further in front can go. -/
theorem eraseDups_specifiers (front : List String) (behind : List Import) (p : Import → Bool)
    (h : ∀ d ∈ behind, p d = false → d.specifier ∈ front) :
    (front ++ (behind.filter p).map (·.specifier)).eraseDups =
      (front ++ behind.map (·.specifier)).eraseDups := by
  rw [List.eraseDups_append, List.eraseDups_append]
  congr 2
  simp only [List.removeAll, List.filter_map, List.filter_filter]
  congr 1
  refine List.filter_congr fun d hd => ?_
  cases hp : p d with
  | true => simp
  | false => simp [h d hd hp]

section

variable {front back : List Import} {first d : Import}

theorem isMergeable_merge {rest : List Import} (hf : isMergeable first = true)
    (binds : (Import.merge first rest).bindings ≠ []) :
    isMergeable (Import.merge first rest) = true := by
  have side : (Import.merge first rest).isSideEffect = false := by
    cases side : (Import.merge first rest).isSideEffect with
    | false => rfl
    | true =>
      rw [Import.isSideEffect_iff, ← Import.bindings_localName, List.map_eq_nil_iff] at side
      exact absurd side binds
  simp only [isMergeable, Bool.and_eq_true] at hf ⊢
  exact ⟨⟨hf.1.1, by simp [side]⟩, hf.2⟩

theorem bindingsOf_cons_ne_nil {rest : List Import} (h : isMergeable first = true) :
    bindingsOf (first :: rest) ≠ [] := by
  intro none
  have noBindings : first.bindings = [] := (List.append_eq_nil_iff.mp none).1
  have side : first.isSideEffect = true := by
    rw [Import.isSideEffect_iff, ← Import.bindings_localName, noBindings, List.map_nil]
  simp [isMergeable, side] at h

/-- Merging a whole group where its first declaration stands keeps the meaning. -/
theorem sameMeaning_merge (hn : (namesOf (front ++ first :: back)).Nodup)
    (hf : isMergeable first = true)
    (can : canMerge (first :: back.filter (joins first)) = true) :
    SameMeaning (front ++ first :: back)
      (front ++ Import.merge first (back.filter (joins first)) ::
        back.filter (!joins first ·)) := by
  have group : ∀ d ∈ first :: back.filter (joins first),
      isMergeable d = true ∧ mergeKey d = mergeKey first := by
    intro d hd
    rcases List.mem_cons.mp hd with rfl | hd
    · exact ⟨hf, rfl⟩
    · simpa [joins] using (List.mem_filter.mp hd).2
  have names : (namesOf (first :: back.filter (joins first))).Nodup := by
    refine hn.sublist ?_
    exact namesOf_sublist ((List.filter_sublist.cons_cons first).trans (List.sublist_append_right ..))
  have merged := bindings_merge group can names
  have mergedThere : isMergeable (Import.merge first (back.filter (joins first))) = true := by
    refine isMergeable_merge hf fun none => ?_
    rw [none] at merged
    exact bindingsOf_cons_ne_nil hf merged.symm.eq_nil
  refine ⟨?_, ?_, ?_⟩
  · have parted := bindingsOf_perm (List.filter_append_perm (joins first) back)
    rw [bindingsOf_append] at parted
    rw [bindingsOf_append, bindingsOf_append]
    refine List.Perm.append_left _ ((merged.append_right _).trans ?_)
    simpa [bindingsOf, List.flatMap_def] using parted.append_left first.bindings
  · have kept : (back.filter (!joins first ·)).filter (!isMergeable ·) =
        back.filter (!isMergeable ·) := by
      rw [List.filter_filter]
      refine List.filter_congr fun d _ => ?_
      cases hd : isMergeable d <;> simp [joins, hd]
    simp [unmergeable, mergedThere, hf, kept]
  · have later := eraseDups_specifiers ((front ++ [first]).map (·.specifier)) back
      (!joins first ·) fun d _ hd => by
        simp only [joins, mergeKey, Prod.mk.injEq, Bool.not_eq_false', Bool.and_eq_true,
          decide_eq_true_eq] at hd
        simp [hd.2.1]
    simpa [Import.merge] using later

/-- Putting the bindings of one declaration in order keeps the meaning. -/
theorem sameMeaning_sorted (hn : (namesOf (front ++ d :: back)).Nodup) :
    SameMeaning (front ++ d :: back)
      (front ++ { d with named := sortNamed d.named } :: back) := by
  have names : (d.named.map (·.localName)).Nodup := by
    refine hn.sublist ?_
    refine List.Sublist.trans ?_ (namesOf_sublist (List.sublist_append_right front (d :: back)))
    rw [namesOf, List.flatMap_cons, Import.localNames, List.append_assoc, List.append_assoc]
    exact List.sublist_append_left ..
  have sorted := sortNamed_perm_self names
  refine ⟨?_, ?_, ?_⟩
  · rw [bindingsOf_append, bindingsOf_append]
    refine List.Perm.append_left _ (List.Perm.append_right (bindingsOf back) ?_)
    exact List.Perm.append_right _ (List.Perm.append_right _ (sorted.map _))
  · have empty : (sortNamed d.named).isEmpty = d.named.isEmpty := by
      rw [Bool.eq_iff_iff, List.isEmpty_iff, List.isEmpty_iff, sortNamed_eq_nil]
    have side : ({ d with named := sortNamed d.named } : Import).isSideEffect = d.isSideEffect := by
      simp only [Import.isSideEffect, empty]
    have mergeable : isMergeable { d with named := sortNamed d.named } = isMergeable d := by
      simp only [isMergeable, side]
    have order : inOrder { d with named := sortNamed d.named } = inOrder d := by
      have same : sortNamed ((sortNamed d.named).map (·.normal)) =
          sortNamed (d.named.map (·.normal)) := by
        refine (sortNamed_congr ?_ (sorted.map _).symm).symm
        simpa [Function.comp_def] using names
      simp only [inOrder, Import.normal, side, same]
    cases hd : isMergeable d <;> simp [unmergeable, mergeable, order, hd]
  · simp

end

end ModuleRepair.SourceFile
