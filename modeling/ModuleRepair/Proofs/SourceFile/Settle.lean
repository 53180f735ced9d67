import ModuleRepair.Proofs.SourceFile.Organize
import ModuleRepair.Proofs.SourceFile.Rewriting

/-!
# Organizing settles

Every merger leaves fewer imports (`Merges.length_lt`), so that merging comes to an end. Then no
group is left that can be merged, and putting named bindings in order makes none again: what decides
about mergers is the profile of each import, which the order does not touch (`profile_inOrder`).
-/
namespace ModuleRepair.SourceFile

open ModuleRepair.Script Relation

/-! ## Groups -/

/-- What decides about mergers: the key of an import that can be merged, and its default name. -/
def profile (d : Import) : Option ((String × Bool) × Option String) :=
  if isMergeable d then some (mergeKey d, given d.defaultName) else none

theorem mergeKey_normal {d : Import} (h : isMergeable d = true) :
    mergeKey d.normal = mergeKey d := by
  simp only [isMergeable, Bool.and_eq_true, Bool.not_eq_true'] at h
  simp [mergeKey, Import.normal, h.1.2]

@[simp] theorem profile_normal (d : Import) : profile d.normal = profile d := by
  unfold profile
  rw [isMergeable_normal]
  split
  · next h => rw [mergeKey_normal h, Import.normal, given_given]
  · rfl

@[simp] theorem profile_inOrder (d : Import) : profile (inOrder d) = profile d := by
  have side : (inOrder d).isSideEffect = d.normal.isSideEffect := by
    have empty : (sortNamed d.normal.named).isEmpty = d.normal.named.isEmpty := by
      rw [Bool.eq_iff_iff, List.isEmpty_iff, List.isEmpty_iff, sortNamed_eq_nil]
    simp only [inOrder, Import.isSideEffect, empty]
  have mergeable : isMergeable (inOrder d) = isMergeable d.normal := by
    rw [isMergeable, side]
    rfl
  rw [← profile_normal d, profile, mergeable]
  rfl

/-- The default names of a group, by the profiles of all imports. -/
def defaultsAt (key : String × Bool) :
    Option ((String × Bool) × Option String) → Option (Option String)
  | some (k, name) => if k = key then some name else none
  | none => none

theorem map_defaultName_group (first : Import) (ds : List Import) :
    (ds.filter (joins first)).map (fun d => given d.defaultName) =
      (ds.map profile).filterMap (defaultsAt (mergeKey first)) := by
  induction ds with
  | nil => rfl
  | cons d ds ih =>
    rw [List.map_cons, List.filterMap_cons, ← ih]
    cases mergeable : isMergeable d with
    | false => simp [joins, profile, mergeable, defaultsAt]
    | true => by_cases same : mergeKey d = mergeKey first <;>
        simp [joins, profile, mergeable, defaultsAt, same]

theorem canMerge_congr {a b : List Import}
    (same : a.map (fun d => given d.defaultName) = b.map fun d => given d.defaultName) :
    canMerge a = canMerge b := by
  have length : a.length = b.length := by simpa using congrArg List.length same
  have names (c : List Import) : (c.filterMap fun d => given d.defaultName) =
      (c.map fun d => given d.defaultName).filterMap id := by
    rw [List.filterMap_map]
    rfl
  rw [canMerge, canMerge, names a, names b, same, length]

/-- No group of imports can be merged. -/
def Unmerged (ds : List Import) : Prop :=
  ∀ d ∈ ds, isMergeable d = true → canMerge (ds.filter (joins d)) = false

theorem unmerged_congr {ds ds' : List Import} (same : ds'.map profile = ds.map profile)
    (h : Unmerged ds) : Unmerged ds' := by
  intro d' hd' mergeable
  obtain ⟨d, hd, alike⟩ : ∃ d ∈ ds, profile d = profile d' :=
    List.mem_map.mp (same ▸ List.mem_map_of_mem hd')
  rw [profile, profile, if_pos mergeable, Option.ite_none_right_eq_some, Option.some.injEq,
    Prod.mk.injEq] at alike
  rw [← h d hd alike.1]
  refine canMerge_congr ?_
  rw [map_defaultName_group, map_defaultName_group, same, alike.2.1]

/-- The group of an import, among all of them. -/
theorem mem_mergeGroups {ds group : List Import} :
    group ∈ mergeGroups (ds.filter isMergeable) ↔
      ∃ d ∈ ds, isMergeable d = true ∧ group = ds.filter (joins d) := by
  have alike (d : Import) : (ds.filter isMergeable).filter (mergeKey · = mergeKey d) =
      ds.filter (joins d) := by
    rw [List.filter_filter]
    exact List.filter_congr fun e _ => Bool.and_comm ..
  simp only [mergeGroups, List.mem_map, List.mem_eraseDups]
  constructor
  · rintro ⟨_, ⟨d, hd, rfl⟩, rfl⟩
    obtain ⟨hd, mergeable⟩ := List.mem_filter.mp hd
    exact ⟨d, hd, mergeable, alike d⟩
  · rintro ⟨d, hd, mergeable, rfl⟩
    exact ⟨mergeKey d, ⟨d, List.mem_filter.mpr ⟨hd, mergeable⟩, rfl⟩, alike d⟩

theorem mergeOnce?_eq_none {f : SourceFile} {o : Outline} :
    f.mergeOnce? o = none ↔ Unmerged o.imports := by
  have found : f.mergeOnce? o = none ↔
      (mergeGroups (o.imports.filter isMergeable)).find? canMerge = none := by
    unfold mergeOnce?
    split
    · next found => simp [found]
    · next other =>
      refine ⟨fun _ => ?_, fun _ => rfl⟩
      cases found : (mergeGroups (o.imports.filter isMergeable)).find? canMerge with
      | none => rfl
      | some group =>
        cases group with
        | nil => exact absurd (List.find?_some found) (by decide)
        | cons first rest => exact absurd found (other first rest)
  simp only [found, List.find?_eq_none, mem_mergeGroups, Bool.not_eq_true, Unmerged]
  constructor
  · exact fun h d hd mergeable => h _ ⟨d, hd, mergeable, rfl⟩
  · rintro h _ ⟨d, hd, mergeable, rfl⟩
    exact h d hd mergeable

/-! ## Mergers -/

/-- A declaration takes the place of the first of its group, and the others go. -/
inductive Merges : List Import → List Import → Prop
  | group {front back : List Import} {first : Import} : isMergeable first = true →
      (∀ d ∈ front, joins first d = false) →
      canMerge (first :: back.filter (joins first)) = true →
      Merges (front ++ first :: back)
        (front ++ Import.merge first (back.filter (joins first)) ::
          back.filter (!joins first ·))

/-- A merger, and the result read again. -/
def MergesAlike (ds ds' : List Import) : Prop :=
  ∃ es, Merges ds es ∧ ds'.map (·.normal) = es.map (·.normal)

variable {ds ds' : List Import}

/-- Each merger leaves fewer imports. -/
theorem Merges.length_lt (h : Merges ds ds') : ds'.length < ds.length := by
  cases h with
  | @group front back first mergeable others can =>
    have parted := (List.filter_append_perm (joins first) back).length_eq
    simp only [canMerge, Bool.and_eq_true, decide_eq_true_eq, List.length_cons] at can
    simp only [List.length_append, List.length_cons] at parted ⊢
    omega

theorem MergesAlike.length_lt (h : MergesAlike ds ds') : ds'.length < ds.length := by
  obtain ⟨es, merges, alike⟩ := h
  have length : ds'.length = es.length := by simpa using congrArg List.length alike
  rw [length]
  exact merges.length_lt

/-- What is bound after a merger was bound before. -/
theorem Merges.bindings (h : Merges ds ds') : ∀ b ∈ bindingsOf ds', b ∈ bindingsOf ds := by
  cases h with
  | @group front back first mergeable others can =>
    have noNamespace : given first.namespaceName = none := by
      simp only [isMergeable, Bool.and_eq_true, Option.isNone_iff_eq_none] at mergeable
      exact mergeable.1.1
    have inGroup : ∀ d ∈ first :: back.filter (joins first),
        d ∈ first :: back ∧ mergeKey d = mergeKey first := by
      refine List.forall_mem_cons.mpr ⟨⟨List.mem_cons_self, rfl⟩, fun d hd => ?_⟩
      obtain ⟨hd, joined⟩ := List.mem_filter.mp hd
      simp only [joins, Bool.and_eq_true, decide_eq_true_eq] at joined
      exact ⟨List.mem_cons_of_mem first hd, joined.2⟩
    have merged : ∀ b ∈ (Import.merge first (back.filter (joins first))).bindings,
        b ∈ bindingsOf (first :: back) := by
      intro b hb
      simp only [Import.bindings, Import.merge, List.mem_append, List.mem_map,
        Option.mem_toList, noNamespace, reduceCtorEq, false_and, exists_false, or_false] at hb
      rcases hb with ⟨n, hn, rfl⟩ | ⟨name, default, rfl⟩
      · obtain ⟨d, hd, hn⟩ := List.mem_flatMap.mp (mem_of_mem_sortNamed hn)
        obtain ⟨there, key⟩ := inGroup d hd
        simp only [mergeKey, Prod.mk.injEq] at key
        refine List.mem_flatMap.mpr ⟨d, there, ?_⟩
        simp only [Import.bindings, List.mem_append, List.mem_map]
        exact .inl (.inl ⟨n, hn, by simp [Import.bindNamed, key]⟩)
      · have first? := (Option.filter_eq_some_iff.mp default).1
        obtain ⟨d, hd, named⟩ := List.exists_of_findSome?_eq_some first?
        obtain ⟨there, key⟩ := inGroup d hd
        simp only [mergeKey, Prod.mk.injEq] at key
        refine List.mem_flatMap.mpr ⟨d, there, ?_⟩
        simp only [Import.bindings, List.mem_append, List.mem_map, Option.mem_toList]
        exact .inl (.inr ⟨name, named, by simp [Import.bindDefault, key]⟩)
    have kept : ∀ b ∈ bindingsOf (back.filter (!joins first ·)),
        b ∈ bindingsOf (first :: back) := by
      intro b hb
      obtain ⟨d, hd, hb⟩ := List.mem_flatMap.mp hb
      exact List.mem_flatMap.mpr ⟨d, List.mem_cons_of_mem first (List.mem_filter.mp hd).1, hb⟩
    intro b hb
    rw [bindingsOf_append, List.mem_append] at hb ⊢
    refine hb.imp_right fun hb => ?_
    exact (List.mem_append.mp hb).elim (merged b) (kept b)

/-! ## What is left -/

/-- Two imports of a group bind different default names. -/
def DefaultsDiffer (ds : List Import) (first : Import) : Prop :=
  ∃ a ∈ ds, ∃ b ∈ ds, joins first a = true ∧ joins first b = true ∧
    ∃ x y, given a.defaultName = some x ∧ given b.defaultName = some y ∧ x ≠ y

/-- Imports that organizing leaves as they are: none of one group are apart unless they bind
different default names, and named bindings stand in order, each local name once. -/
structure Settled (ds : List Import) : Prop where
  merged : ds.Pairwise fun d e => isMergeable d = true → joins d e = true → DefaultsDiffer ds d
  sorted : ∀ d ∈ ds, d.named.Pairwise fun a b => a.mayPrecede b = true
  distinct : ∀ d ∈ ds, (d.named.map (·.localName)).Nodup

theorem exists_ne_of_eraseDups {names : List String} (h : ¬ names.eraseDups.length ≤ 1) :
    ∃ x ∈ names, ∃ y ∈ names, x ≠ y := by
  cases names with
  | nil => exact absurd (by simp) h
  | cons x names =>
    rw [List.eraseDups_cons, List.length_cons] at h
    cases rest : names.filter fun b => !b == x with
    | nil => simp [rest] at h
    | cons y others =>
      have hy : y ∈ names.filter fun b => !b == x := by simp [rest]
      obtain ⟨hy, other⟩ := List.mem_filter.mp hy
      refine ⟨x, List.mem_cons_self, y, List.mem_cons_of_mem x hy, fun same => ?_⟩
      simp [same] at other

/-- Where nothing can be merged, imports of one group are apart for their default names only. -/
theorem Unmerged.pairwise (h : Unmerged ds) :
    ds.Pairwise fun d e => isMergeable d = true → joins d e = true → DefaultsDiffer ds d := by
  refine List.pairwise_iff_forall_sublist.mpr fun {d e} both mergeable joined => ?_
  have hd : d ∈ ds := both.mem List.mem_cons_self
  have several : 2 ≤ (ds.filter (joins d)).length := by
    have self : joins d d = true := by simp [joins, mergeable]
    have two := (both.filter (joins d)).length_le
    simpa [self, joined] using two
  have differ : ¬ ((ds.filter (joins d)).filterMap
      fun d => given d.defaultName).eraseDups.length ≤ 1 := by
    have apart := h d hd mergeable
    rw [canMerge, decide_eq_true several, Bool.true_and] at apart
    exact of_decide_eq_false apart
  obtain ⟨x, hx, y, hy, other⟩ := exists_ne_of_eraseDups differ
  obtain ⟨a, ha, named⟩ := List.mem_filterMap.mp hx
  obtain ⟨b, hb, named'⟩ := List.mem_filterMap.mp hy
  obtain ⟨ha, joinsA⟩ := List.mem_filter.mp ha
  obtain ⟨hb, joinsB⟩ := List.mem_filter.mp hb
  exact ⟨a, ha, b, hb, joinsA, joinsB, x, y, named, named', other⟩

/-! ## Files -/

/-- A file of a set, read without errors, whose imports bind nothing but certain names. -/
structure Known (files : SourceFile → Prop) (known : List Binding) (f : SourceFile) (o : Outline) :
    Prop where
  mem : files f
  read : f.read = .ok (some o)
  bindings : ∀ b ∈ bindingsOf o.imports, b ∈ known

/-- One merger of a file, as it is read. -/
def MergesTo (f g : SourceFile) : Prop :=
  ∃ o, f.outline = .ok o ∧ f.mergeOnce? o = some g

variable {files : SourceFile → Prop} {known : List Binding} {f f' g : SourceFile} {o : Outline}

theorem Known.of_readAs {inPlace : List Import} (h : ReadAs files inPlace ds f)
    (bindings : ∀ b ∈ bindingsOf ds, b ∈ known) :
    ∃ o, Known files known f o ∧ o.imports.map (·.normal) = ds.map (·.normal) := by
  obtain ⟨hf, o, hr, imports, -⟩ := h
  refine ⟨o, ⟨hf, hr, ?_⟩, imports⟩
  rwa [← bindingsOf_normal, imports, bindingsOf_normal]

section

variable (h : Rereads (Organizing known) files) (k : Known files known f o)
include h k

theorem Known.mergeOnce (merged : f.mergeOnce? o = some g) :
    ∃ o', Known files known g o' ∧ MergesAlike o.imports o'.imports := by
  obtain ⟨first, rest, found, rfl⟩ := mergeOnce?_eq_some merged
  obtain ⟨can, group⟩ := group_of_find? found
  obtain ⟨front, back, split, others, joined, rfl⟩ := List.filter_eq_cons_iff.mp group
  have mergeable : isMergeable first = true := by
    simp only [joins, Bool.and_eq_true] at joined
    exact joined.1
  have merges : Merges o.imports (front ++ Import.merge first (back.filter (joins first)) ::
      back.filter (!joins first ·)) := by
    rw [split]
    exact .group mergeable (fun d hd => by simpa using others d hd) can
  have bindings := fun b hb => k.bindings b (merges.bindings b hb)
  have behind : o.imports = (front ++ [first]) ++ back := by simp [split]
  obtain ⟨hg, o', hr', imports, tail, inPlace⟩ :=
    removeImports_readAs h k.mem k.read (joins first) behind
  have here : o'.imports = front ++ first :: tail := by simp [← inPlace]
  have rest : (front ++ [Import.merge first (back.filter (joins first))] ++ tail).map (·.normal) =
      (front ++ Import.merge first (back.filter (joins first)) ::
        back.filter (!joins first ·)).map (·.normal) := by
    simpa [here] using imports
  have written : ∀ b ∈ (Import.merge first (back.filter (joins first))).bindings, b ∈ known :=
    fun b hb => bindings b (by simp [bindingsOf, hb])
  have replaced := h.replaced hg hr' here (.merged (by simp [here]) mergeable written)
  obtain ⟨o'', known, alike⟩ := Known.of_readAs replaced (by
    rwa [← bindingsOf_normal, rest, bindingsOf_normal])
  exact ⟨o'', known, _, merges, alike.trans rest⟩

/-- Merging stops, however often it may be tried beyond the number of imports. -/
theorem Known.mergeAll : ∃ g o', (∀ n ≥ o.imports.length, mergeAll n f = .ok g) ∧
    Known files known g o' ∧ ReflTransGen MergesTo f g ∧
    ReflTransGen MergesAlike o.imports o'.imports ∧ Unmerged o'.imports := by
  induction count : o.imports.length using Nat.strongRecOn generalizing f o with
  | _ count ih =>
    have ho := outline_of_read k.read
    cases merged : f.mergeOnce? o with
    | none =>
      refine ⟨f, o, fun n _ => ?_, k, .refl, .refl, mergeOnce?_eq_none.mp merged⟩
      cases n with
      | zero => rfl
      | succ n =>
        simp only [SourceFile.mergeAll, ho, bind, Except.bind, merged]
        rfl
    | some f₁ =>
      obtain ⟨o₁, k₁, merges⟩ := k.mergeOnce h merged
      have fewer := merges.length_lt
      obtain ⟨g, o', done, k', files, lists, rest⟩ := ih _ (count ▸ fewer) k₁ rfl
      refine ⟨g, o', fun n enough => ?_, k', .head ⟨o, ho, merged⟩ files, .head merges lists, rest⟩
      obtain ⟨n, rfl⟩ := Nat.exists_eq_add_one.mpr (Nat.lt_of_lt_of_le (by omega) enough)
      simp only [SourceFile.mergeAll, ho, bind, Except.bind, merged]
      exact done n (by omega)

end

/-! ## Order -/

theorem normal_sorted (d : Import) :
    ({ d with named := sortNamed d.named } : Import).normal = inOrder d := by
  have empty : (sortNamed d.named).isEmpty = d.named.isEmpty := by
    rw [Bool.eq_iff_iff, List.isEmpty_iff, List.isEmpty_iff, sortNamed_eq_nil]
  have side : ({ d with named := sortNamed d.named } : Import).isSideEffect = d.isSideEffect := by
    simp only [Import.isSideEffect, empty]
  simp only [inOrder, Import.normal, side, sortNamed_normal]

theorem inOrder_normal (d : Import) : inOrder d.normal = inOrder d := by
  simp [inOrder]

/-- Sorting the bindings of an import changes how it is read unless they are in order. -/
theorem inOrder_eq_normal {d : Import} : inOrder d = d.normal ↔ sortNamed d.named = d.named := by
  rw [← normal_sorted]
  constructor
  · intro same
    exact sortNamed_eq_of_normal (congrArg Import.named same)
  · intro same
    rw [same]

/-- The imports up to a position as they are, and the others in order. -/
def orderedFrom (position : Nat) (ds : List Import) : List Import :=
  (ds.take position).map (·.normal) ++ (ds.drop position).map inOrder

theorem orderedFrom_length (ds : List Import) :
    orderedFrom ds.length ds = ds.map (·.normal) := by
  simp [orderedFrom]

/-- One more import is in order. -/
theorem orderedFrom_succ {position : Nat} {d : Import} (there : ds[position]? = some d)
    (alike : ds'.map (·.normal) = (ds.take position).map (·.normal) ++
      inOrder d :: (ds.drop (position + 1)).map (·.normal)) :
    orderedFrom (position + 1) ds' = orderedFrom position ds := by
  obtain ⟨inside, rfl⟩ := List.getElem?_eq_some_iff.mp there
  have length : ((ds.take position).map (·.normal)).length = position := by
    simp
    omega
  have behind : (ds'.drop (position + 1)).map inOrder = (ds.drop (position + 1)).map inOrder := by
    have normals (es : List Import) : es.map inOrder = (es.map (·.normal)).map inOrder := by
      simp [Function.comp_def, inOrder_normal]
    rw [normals, List.map_drop, alike, List.append_cons,
      List.drop_left' (by rw [List.length_append, length]; rfl), ← normals]
  rw [orderedFrom, behind, List.map_take, alike, List.append_cons,
    List.take_left' (by rw [List.length_append, length]; rfl), orderedFrom, List.append_assoc,
    List.drop_eq_getElem_cons inside]
  rfl

section

variable (h : Rereads (Organizing known) files) (k : Known files known f o)
include h k

theorem Known.sortAt {position : Nat} {d : Import} (there : o.imports[position]? = some d) :
    ∃ o', Known files known (if sortNamed d.named = d.named then f
        else f.replaceImport d [{ d with named := sortNamed d.named }]) o' ∧
      o'.imports.length = o.imports.length ∧
      orderedFrom (position + 1) o'.imports = orderedFrom position o.imports := by
  obtain ⟨front, back, split, rfl⟩ := split_of_getElem? there
  split
  · next sorted =>
    refine ⟨o, k, rfl, orderedFrom_succ there ?_⟩
    rw [inOrder_eq_normal.mpr sorted, split]
    simp
  · have replaced := h.replaced k.mem k.read split (.sorted there)
    obtain ⟨o', k', alike⟩ := Known.of_readAs replaced fun b hb => by
      refine k.bindings b ?_
      rw [split, List.append_cons]
      simp only [bindingsOf_append, bindingsOf_singleton, List.mem_append] at hb ⊢
      exact hb.imp_left (Or.imp_right mem_bindings_sorted)
    refine ⟨o', k', ?_, orderedFrom_succ there ?_⟩
    · simpa [split] using congrArg List.length alike
    · rw [alike, split]
      simp [normal_sorted]

theorem Known.sortFrom {n position : Nat} (count : n + position = o.imports.length) :
    ∃ g o', sortFrom n position f = .ok g ∧ Known files known g o' ∧
      o'.imports.map (·.normal) = orderedFrom position o.imports := by
  induction n generalizing f o position with
  | zero =>
    refine ⟨f, o, rfl, k, ?_⟩
    rw [← orderedFrom_length, ← count, Nat.zero_add]
  | succ n ih =>
    have inside : position < o.imports.length := by omega
    have there : o.imports[position]? = some o.imports[position] := List.getElem?_eq_getElem inside
    obtain ⟨o₁, k₁, length, ordered⟩ := k.sortAt h there
    have left : n + (position + 1) = o₁.imports.length := by omega
    obtain ⟨g, o', done, k', alike⟩ := ih k₁ left
    refine ⟨g, o', ?_, k', alike.trans ordered⟩
    simp only [SourceFile.sortFrom, outline_of_read k.read, bind, Except.bind, there]
    exact done

end

/-! ## Organizing -/

/-- Merging a file stops, and each merger on the way leaves fewer imports. -/
structure Stops (f : SourceFile) (enough : Nat) (merged : SourceFile) : Prop where
  result : ∀ n ≥ enough, mergeAll n f = .ok merged
  reached : ReflTransGen MergesTo f merged
  final : ∀ g, ¬ MergesTo merged g
  fewer : ∀ g g', ReflTransGen MergesTo f g → MergesTo g g' → ∃ o o', g.read = .ok (some o) ∧
    g'.read = .ok (some o') ∧ o'.imports.length < o.imports.length

theorem Known.unmerged (k : Known files known f o) :
    Unmerged o.imports ↔ ∀ g, ¬ MergesTo f g := by
  rw [← mergeOnce?_eq_none (f := f), Option.eq_none_iff_forall_ne_some]
  refine forall_congr' fun g => not_congr ?_
  simp [MergesTo, outline_of_read k.read]

/-- Wherever mergers lead to, the file is read without errors. -/
theorem Known.reached (h : Rereads (Organizing known) files) (k : Known files known f o)
    (mergers : ReflTransGen MergesTo f g) : ∃ o', Known files known g o' := by
  induction mergers with
  | refl => exact ⟨o, k⟩
  | tail _ step ih =>
    obtain ⟨o', k'⟩ := ih
    obtain ⟨o'', read, merged⟩ := step
    obtain rfl : o' = o'' := by simpa [outline_of_read k'.read] using read
    exact (k'.mergeOnce h merged).imp fun _ => And.left

/-- What organizing does: mergers until there are none, and then the order of named bindings. -/
theorem Known.organize (h : Rereads (Organizing known) files) (k : Known files known f o) :
    ∃ merged o₁ f' o', Stops f o.imports.length merged ∧ Known files known merged o₁ ∧
      ReflTransGen MergesAlike o.imports o₁.imports ∧ Unmerged o₁.imports ∧
      SourceFile.sortFrom o₁.imports.length 0 merged = .ok f' ∧ f.organize = .ok f' ∧
      Known files known f' o' ∧ o'.imports.map (·.normal) = o₁.imports.map inOrder := by
  obtain ⟨merged, o₁, result, k₁, reached, mergers, unmerged⟩ := k.mergeAll h
  obtain ⟨f', o', sorted, k', alike⟩ := k₁.sortFrom h (Nat.add_zero _)
  refine ⟨merged, o₁, f', o', ⟨result, reached, k₁.unmerged.mp unmerged, ?_⟩, k₁, mergers, unmerged,
    sorted, ?_, k', alike⟩
  · rintro g g' mergers ⟨a, read, merged⟩
    obtain ⟨b, known⟩ := k.reached h mergers
    obtain rfl : b = a := by simpa [outline_of_read known.read] using read
    obtain ⟨c, known', merges⟩ := known.mergeOnce h merged
    exact ⟨b, c, known.read, known'.read, merges.length_lt⟩
  · simp only [SourceFile.organize, outline_of_read k.read, outline_of_read k₁.read, bind,
      Except.bind, result _ (Nat.le_refl _), sorted]

/-- Imports that are read back in order settle. -/
theorem settled_of_inOrder (alike : ds'.map (·.normal) = ds.map inOrder) (h : Unmerged ds) :
    Unmerged ds' ∧ Settled ds' := by
  have same : ds'.map profile = ds.map profile := by
    simpa [Function.comp_def] using congrArg (List.map profile) alike
  have ordered : ∀ d ∈ ds', ∃ named, d.named.map (·.normal) = sortNamed named := by
    intro d hd
    obtain ⟨e, -, eq⟩ := List.mem_map.mp (alike ▸ List.mem_map_of_mem hd)
    exact ⟨e.normal.named, (congrArg Import.named eq).symm⟩
  have unmerged := unmerged_congr same h
  refine ⟨unmerged, unmerged.pairwise, fun d hd => ?_, fun d hd => ?_⟩
  · obtain ⟨named, eq⟩ := ordered d hd
    have sorted := sortNamed_pairwise named
    rw [← eq, List.pairwise_map] at sorted
    simpa [NamedImport.normal_mayPrecede] using sorted
  · obtain ⟨named, eq⟩ := ordered d hd
    have names := sortNamed_localNames named
    rw [← eq] at names
    simpa [Function.comp_def] using names

theorem organizes_eq {merged : SourceFile} {o₁ : Outline} (ho : f.outline = .ok o)
    (result : mergeAll o.imports.length f = .ok merged) (ho₁ : merged.outline = .ok o₁) :
    f.organizes = .ok ((f.mergeOnce? o).isSome ||
      o₁.imports.any fun d => sortNamed d.named ≠ d.named) := by
  simp only [organizes, ho, result, ho₁, bind, Except.bind]
  rfl

theorem sortFrom_eq_self (ho : f.outline = .ok o)
    (sorted : ∀ d ∈ o.imports, sortNamed d.named = d.named) (n position : Nat) :
    sortFrom n position f = .ok f := by
  induction n generalizing position with
  | zero => rfl
  | succ n ih =>
    simp only [SourceFile.sortFrom, ho, bind, Except.bind]
    split
    · rfl
    · next d there =>
      rw [if_pos (sorted d (List.mem_of_getElem? there))]
      exact ih (position + 1)

/-- Settled imports are left as they are. -/
theorem organize_eq_self (ho : f.outline = .ok o) (unmerged : Unmerged o.imports)
    (sorted : ∀ d ∈ o.imports, sortNamed d.named = d.named) :
    f.organize = .ok f ∧ f.organizes = .ok false := by
  have none : f.mergeOnce? o = none := mergeOnce?_eq_none.mpr unmerged
  have result (n : Nat) : mergeAll n f = .ok f := by
    cases n with
    | zero => rfl
    | succ n =>
      simp only [SourceFile.mergeAll, ho, bind, Except.bind, none]
      rfl
  constructor
  · simp only [SourceFile.organize, ho, result, bind, Except.bind]
    exact sortFrom_eq_self ho sorted _ _
  · rw [organizes_eq ho (result _) ho, none]
    simpa using sorted

theorem length_le_of_mergers (h : ReflTransGen MergesAlike ds ds') : ds'.length ≤ ds.length := by
  induction h with
  | refl => exact Nat.le_refl _
  | tail _ merges ih => exact Nat.le_trans (Nat.le_of_lt merges.length_lt) ih

theorem read_congr (path : g.path = f.path) (text : g.text = f.text) : g.read = f.read := by
  simp only [SourceFile.read, path, text]

/-- The text changes whenever something is merged or put in order, as the imports that are read
afterwards are others. -/
theorem text_ne_of_changes {o' o₁ : Outline} (hr : f.read = .ok (some o))
    (hr' : f'.read = .ok (some o')) (path : f'.path = f.path)
    (mergers : ReflTransGen MergesAlike o.imports o₁.imports) (unmerged : Unmerged o₁.imports)
    (alike : o'.imports.map (·.normal) = o₁.imports.map inOrder)
    (changes : (f.mergeOnce? o).isSome = true ∨ ∃ d ∈ o₁.imports, sortNamed d.named ≠ d.named) :
    f'.text ≠ f.text := by
  intro text
  obtain rfl : o' = o := by simpa [hr, hr'] using read_congr path text
  have length : o'.imports.length = o₁.imports.length := by simpa using congrArg List.length alike
  rcases mergers.cases_head with same | ⟨es, first, rest⟩
  · rw [← same] at unmerged alike changes
    rcases changes with merged | ⟨d, hd, unsorted⟩
    · rw [mergeOnce?_eq_none.mpr unmerged] at merged
      cases merged
    · exact unsorted (inOrder_eq_normal.mp (List.map_inj_left.mp alike d hd).symm)
  · have fewer := first.length_lt
    have least := length_le_of_mergers rest
    omega

/-- Organizing comes to an end and settles. Its answer tells whether it has changed the text, and
done again it changes nothing. -/
theorem organize_settles (h : Rereads (Organizing (bindingsOf o.imports)) files) (hf : files f)
    (hr : f.read = .ok (some o)) :
    ∃ merged f' o' changed, Stops f o.imports.length merged ∧ f.organize = .ok f' ∧
      f.organizes = .ok changed ∧ f'.read = .ok (some o') ∧ Settled o'.imports ∧
      (changed = true ↔ f'.text ≠ f.text) ∧ f'.organize = .ok f' ∧ f'.organizes = .ok false := by
  have k : Known files (bindingsOf o.imports) f o := ⟨hf, hr, fun _ hb => hb⟩
  obtain ⟨merged, o₁, f', o', stops, k₁, mergers, unmerged, sorting, organized, k', alike⟩ :=
    k.organize h
  obtain ⟨unmerged', settled⟩ := settled_of_inOrder alike unmerged
  obtain ⟨unchanged, done⟩ := organize_eq_self (outline_of_read k'.read) unmerged'
    fun d hd => sortNamed_eq_self (settled.sorted d hd) (settled.distinct d hd)
  have answer := organizes_eq (outline_of_read hr) (stops.result _ (Nat.le_refl _))
    (outline_of_read k₁.read)
  refine ⟨merged, f', o', _, stops, organized, answer, k'.read, settled, ?_, unchanged, done⟩
  have path : f'.path = f.path := path_of_rewritings (organize_rewrites organized)
  rw [Bool.or_eq_true, List.any_eq_true]
  constructor
  · intro changes
    exact text_ne_of_changes hr k'.read path mergers unmerged alike
      (changes.imp_right fun ⟨d, hd, unsorted⟩ => ⟨d, hd, of_decide_eq_true unsorted⟩)
  · intro other
    refine Classical.byContradiction fun idle => ?_
    obtain ⟨noMerger, sorted⟩ := not_or.mp idle
    have none : f.mergeOnce? o = none := by simpa using noMerger
    -- Nothing is merged, and then nothing is put in order.
    obtain rfl : merged = f := by
      rcases stops.reached.cases_head with same | ⟨g, step, -⟩
      · exact same.symm
      · exact absurd step (k.unmerged.mp (mergeOnce?_eq_none.mp none) g)
    have same := sortFrom_eq_self (outline_of_read k₁.read) (by simpa using sorted)
      o₁.imports.length 0
    exact other (congrArg SourceFile.text (Except.ok.inj (sorting.symm.trans same)))

theorem scatteredModule_settles :
    Rereads (Organizing (bindingsOf (placed 0 scatteredImports)))
        (fun f => ∃ ds, HoldsLines .typescript ds f) ∧
      (∃ ds, HoldsLines .typescript ds scatteredModule) ∧
      scatteredModule.read = .ok (some { imports := placed 0 scatteredImports }) ∧
      ∃ merged f' o' changed, Stops scatteredModule 6 merged ∧
        scatteredModule.organize = .ok f' ∧ scatteredModule.organizes = .ok changed ∧
        f'.read = .ok (some o') ∧ Settled o'.imports ∧
        (changed = true ↔ f'.text ≠ scatteredModule.text) ∧ f'.organize = .ok f' ∧
        f'.organizes = .ok false := by
  have lines := scatteredModule_holdsLines
  have rereads : Rereads (Organizing (bindingsOf (placed 0 scatteredImports)))
      fun f => ∃ ds, HoldsLines .typescript ds f :=
    organizing_rereads (wellFormed_of_placed lines.wellFormed) (.inl rfl)
  exact ⟨rereads, ⟨_, lines⟩, lines.read, organize_settles rereads ⟨_, lines⟩ lines.read⟩

end ModuleRepair.SourceFile
