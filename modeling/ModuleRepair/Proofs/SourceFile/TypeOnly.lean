import Mathlib.Logic.Basic
import ModuleRepair.Proofs.Import.Switch
import ModuleRepair.Proofs.SourceFile.Settle

/-!
# Type imports with two kinds of bindings

A declaration that imports types only may bind a default name or named ones, but not both. Merging
and switching do not look at this: a merger of type imports mixes both exactly when the group holds
both (`mixes_merge`), and a switched binding leaves a mixed declaration exactly when other bindings
stay behind in the braces of a type import (`mixes_of_namedToDefault?`).
-/
namespace ModuleRepair

open ModuleRepair.Script ModuleRepair.SourceFile Relation

/-- A declaration of types only that binds a default name and named ones. The language has no such
declaration. -/
def Import.Mixes (d : Import) : Prop :=
  d.typeOnly = true ∧ given d.defaultName ≠ none ∧ d.named ≠ []

/-- One of several declarations mixes both. -/
def MixesTypes (ds : List Import) : Prop :=
  ∃ d ∈ ds, d.Mixes

variable {d new : Import} {ds ds' cs : List Import} {name : String}

@[simp] theorem Import.mixes_normal : d.normal.Mixes ↔ d.Mixes := by
  have default : given d.normal.defaultName = given d.defaultName := given_given _
  have named : d.normal.named ≠ [] ↔ d.named ≠ [] := by simp [normal]
  rw [Mixes, Mixes, default, named]
  refine and_congr_left fun both => ?_
  have binds : d.isSideEffect = false := by
    simp [isSideEffect, both.1]
  simp [normal, binds]

@[simp] theorem Import.mixes_inOrder : (inOrder d).Mixes ↔ d.Mixes := by
  have named : (inOrder d).named ≠ [] ↔ d.normal.named ≠ [] := not_congr sortNamed_eq_nil
  rw [← mixes_normal (d := d), Mixes, Mixes, named]
  rfl

theorem mixesTypes_congr (alike : ds'.map (·.normal) = ds.map (·.normal)) :
    MixesTypes ds' ↔ MixesTypes ds := by
  have normal (es : List Import) : MixesTypes (es.map (·.normal)) ↔ MixesTypes es := by
    simp [MixesTypes]
  rw [← normal ds', alike, normal]

theorem mixesTypes_append {front back : List Import} :
    MixesTypes (front ++ back) ↔ MixesTypes front ∨ MixesTypes back := by
  simp [MixesTypes, or_and_right, exists_or]

theorem mixesTypes_cons : MixesTypes (d :: ds) ↔ d.Mixes ∨ MixesTypes ds := by
  simp [MixesTypes]

/-! ## Mergers -/

/-- A merger mixes types exactly when its group of type imports holds both kinds of bindings. -/
theorem Import.mixes_merge {first : Import} {rest : List Import} :
    (Import.merge first rest).Mixes ↔ first.typeOnly = true ∧
      (∃ d ∈ first :: rest, given d.defaultName ≠ none) ∧ ∃ d ∈ first :: rest, d.named ≠ [] := by
  have default : given ((first :: rest).findSome? fun d => given d.defaultName) ≠ none ↔
      ∃ d ∈ first :: rest, given d.defaultName ≠ none := by
    cases found : (first :: rest).findSome? fun d => given d.defaultName with
    | none =>
      have none := List.findSome?_eq_none_iff.mp found
      exact iff_of_false (by simp [given_none]) fun ⟨d, hd, there⟩ => there (none d hd)
    | some x =>
      obtain ⟨d, hd, named⟩ := List.exists_of_findSome?_eq_some found
      exact iff_of_true (by simp [given_some (given_ne_empty named)]) ⟨d, hd, by simp [named]⟩
  have named : sortNamed ((first :: rest).flatMap (·.named)) ≠ [] ↔
      ∃ d ∈ first :: rest, d.named ≠ [] := by
    rw [Ne, sortNamed_eq_nil, List.flatMap_eq_nil_iff]
    simp only [not_forall, exists_prop]
  exact and_congr_right fun _ => and_congr default named

/-- The type imports of a specifier that organizing may merge. -/
def typeGroup (specifier : String) (ds : List Import) : List Import :=
  ds.filter fun d => isMergeable d && mergeKey d = (specifier, true)

/-- The type imports of some specifier can be merged, and hold both kinds of bindings. -/
def Blends (ds : List Import) : Prop :=
  ∃ specifier, canMerge (typeGroup specifier ds) = true ∧
    (∃ d ∈ typeGroup specifier ds, given d.defaultName ≠ none) ∧
    ∃ d ∈ typeGroup specifier ds, d.named ≠ []

theorem typeGroup_normal (specifier : String) (ds : List Import) :
    typeGroup specifier (ds.map (·.normal)) = (typeGroup specifier ds).map (·.normal) := by
  rw [typeGroup, typeGroup, List.filter_map]
  congr 1
  refine List.filter_congr fun d _ => ?_
  cases mergeable : isMergeable d with
  | false => simp [mergeable]
  | true => simp [mergeable, mergeKey_normal mergeable]

theorem blends_congr (alike : ds'.map (·.normal) = ds.map (·.normal)) : Blends ds' ↔ Blends ds := by
  have default (d : Import) : given d.normal.defaultName = given d.defaultName := given_given _
  have normal (es : List Import) : Blends (es.map (·.normal)) ↔ Blends es := by
    have same (group : List Import) : canMerge (group.map (·.normal)) = canMerge group :=
      canMerge_congr (by simp [default])
    have named (d : Import) : d.normal.named = [] ↔ d.named = [] := by simp [Import.normal]
    simp only [Blends, typeGroup_normal, same, List.mem_map, exists_exists_and_eq_and, default, Ne,
      named]
  rw [← normal ds', alike, normal]

theorem not_blends_of_unmerged (h : Unmerged ds) : ¬Blends ds := by
  rintro ⟨specifier, can, ⟨d, hd, -⟩, -⟩
  obtain ⟨there, here⟩ := List.mem_filter.mp hd
  simp only [Bool.and_eq_true, decide_eq_true_eq] at here
  have group : ds.filter (joins d) = typeGroup specifier ds := by
    refine List.filter_congr fun e _ => ?_
    rw [joins, here.2]
  rw [← group, h d there here.1] at can
  cases can

theorem mixesTypes_parted (p : Import → Bool) (ds : List Import) :
    MixesTypes ds ↔ MixesTypes (ds.filter p) ∨ MixesTypes (ds.filter (!p ·)) := by
  rw [← mixesTypes_append]
  exact exists_congr fun _ => and_congr_left fun _ =>
    (List.filter_append_perm p ds).symm.mem_iff

section

variable {front back : List Import} {first : Import}

theorem filter_joins (mergeable : isMergeable first = true)
    (others : ∀ d ∈ front, joins first d = false) (back : List Import) :
    (front ++ first :: back).filter (joins first) = first :: back.filter (joins first) := by
  have here : joins first first = true := by simp [joins, mergeable]
  rw [List.filter_append, List.filter_eq_nil_iff.mpr (by simpa using others),
    List.filter_cons_of_pos here, List.nil_append]

/-- After a merger its group is one import at most. -/
theorem length_filter_merged (others : ∀ d ∈ front, joins first d = false) (merged : Import)
    (back : List Import) :
    ((front ++ merged :: back.filter (!joins first ·)).filter (joins first)).length ≤ 1 := by
  have nobody : (back.filter (!joins first ·)).filter (joins first) = [] := by
    rw [List.filter_filter]
    simp
  rw [List.filter_append, List.filter_eq_nil_iff.mpr (by simpa using others), List.nil_append,
    List.filter_cons, nobody]
  split <;> simp

/-- All other groups stay as they are. -/
theorem typeGroup_merged {specifier : String} (other : mergeKey first ≠ (specifier, true))
    {merged : Import} (key : mergeKey merged = mergeKey first) :
    typeGroup specifier (front ++ merged :: back.filter (!joins first ·)) =
      typeGroup specifier (front ++ first :: back) := by
  rw [typeGroup, typeGroup, List.filter_append, List.filter_append,
    List.filter_cons_of_neg (by simp [key, other]), List.filter_cons_of_neg (by simp [other]),
    List.filter_filter]
  congr 1
  refine List.filter_congr fun d _ => ?_
  cases joined : joins first d with
  | false => simp
  | true =>
    simp only [joins, Bool.and_eq_true, decide_eq_true_eq] at joined
    simp [joined.2, other]

/-- One merger neither makes a mixture possible that was not before, nor rules one out. -/
theorem SourceFile.Merges.mixes_iff (h : Merges ds ds') :
    MixesTypes ds' ∨ Blends ds' ↔ MixesTypes ds ∨ Blends ds := by
  cases h with
  | @group front back first mergeable others can =>
    have merges : (Import.merge first (back.filter (joins first))).Mixes ↔ _ := Import.mixes_merge
    have key : mergeKey (Import.merge first (back.filter (joins first))) = mergeKey first := rfl
    generalize Import.merge first (back.filter (joins first)) = merged at merges key ⊢
    have whole := filter_joins mergeable others back
    have own (specifier : String) (same : mergeKey first = (specifier, true)) (es : List Import) :
        typeGroup specifier es = es.filter (joins first) :=
      List.filter_congr fun d _ => by rw [joins, same]
    have after : MixesTypes (front ++ merged :: back.filter (!joins first ·)) ↔
        merged.Mixes ∨ MixesTypes front ∨ MixesTypes (back.filter (!joins first ·)) := by
      rw [mixesTypes_append, mixesTypes_cons, or_left_comm]
    have before : MixesTypes (front ++ first :: back) ↔
        MixesTypes (first :: back.filter (joins first)) ∨ MixesTypes front ∨
          MixesTypes (back.filter (!joins first ·)) := by
      rw [mixesTypes_append, mixesTypes_cons, mixesTypes_cons, mixesTypes_parted (joins first) back]
      grind
    rw [after, before]
    constructor
    · rintro ((mixes | rest) | ⟨specifier, can', default, named⟩)
      · obtain ⟨type, default, named⟩ := merges.mp mixes
        refine .inr ⟨first.specifier, ?_⟩
        rw [own _ (by rw [mergeKey, type]), whole]
        exact ⟨can, default, named⟩
      · exact .inl (.inr rest)
      · by_cases same : mergeKey first = (specifier, true)
        · have few := length_filter_merged others merged back
          rw [own specifier same, canMerge, Bool.and_eq_true, decide_eq_true_eq] at can'
          omega
        · rw [typeGroup_merged same key] at can' default named
          exact .inr ⟨specifier, can', default, named⟩
    · rintro ((⟨d, hd, type, default, named⟩ | rest) | ⟨specifier, can', default, named⟩)
      · have joined := (List.mem_filter.mp (whole ▸ hd)).2
        simp only [joins, mergeKey, Bool.and_eq_true, decide_eq_true_eq, Prod.mk.injEq] at joined
        exact .inl (.inl (merges.mpr ⟨joined.2.2 ▸ type, ⟨d, hd, default⟩, d, hd, named⟩))
      · exact .inl (.inr rest)
      · by_cases same : mergeKey first = (specifier, true)
        · rw [own specifier same, whole] at default named
          exact .inl (.inl (merges.mpr ⟨congrArg Prod.snd same, default, named⟩))
        · rw [← typeGroup_merged same key] at can' default named
          exact .inr ⟨specifier, can', default, named⟩

end

theorem mixes_iff_of_mergers (h : ReflTransGen MergesAlike ds ds') :
    MixesTypes ds' ∨ Blends ds' ↔ MixesTypes ds ∨ Blends ds := by
  induction h with
  | refl => exact .rfl
  | tail _ step ih =>
    obtain ⟨es, merges, alike⟩ := step
    rw [← ih, ← merges.mixes_iff, mixesTypes_congr alike, blends_congr alike]

/-- What organizing leaves mixes types exactly when something did before, or was to be merged into a
mixture. -/
theorem SourceFile.organize_mixes_iff {files : SourceFile → Prop} {f : SourceFile} {o : Outline}
    (h : Rereads (Organizing (bindingsOf o.imports)) files) (hf : files f)
    (hr : f.read = .ok (some o)) : ∃ f' o', f.organize = .ok f' ∧ f'.read = .ok (some o') ∧
      (MixesTypes o'.imports ↔ MixesTypes o.imports ∨ Blends o.imports) := by
  have known : Known files (bindingsOf o.imports) f o := ⟨hf, hr, fun _ hb => hb⟩
  obtain ⟨merged, o₁, f', o', -, -, mergers, unmerged, -, organized, known', alike⟩ :=
    known.organize h
  refine ⟨f', o', organized, known'.read, ?_⟩
  have ordered : MixesTypes o'.imports ↔ MixesTypes o₁.imports := by
    have read : MixesTypes (o'.imports.map (·.normal)) ↔ MixesTypes (o₁.imports.map inOrder) := by
      rw [alike]
    simpa [MixesTypes] using read
  rw [← mixes_iff_of_mergers mergers, ordered, or_iff_left (not_blends_of_unmerged unmerged)]

/-! ## Switched bindings -/

/-- A switched binding leaves a mixed declaration exactly when it came from a type import and others
stay behind. -/
theorem mixes_of_namedToDefault? (letters : name ≠ "") (h : d.namedToDefault? name = some new) :
    new.Mixes ↔ d.typeOnly = true ∧ 2 ≤ d.named.length := by
  obtain ⟨-, front, b, back, split, -, -, rfl⟩ := Import.namedToDefault?_eq_some h
  refine and_congr_right fun _ => ?_
  have rest : 2 ≤ d.named.length ↔ front ++ back ≠ [] := by
    rw [split, ← List.length_pos_iff]
    simp only [List.length_append, List.length_cons]
    omega
  simp [rest, given_some letters]

theorem Switches.mixes_iff (letters : name ≠ "") (h : Switches name ds cs ds') :
    MixesTypes ds' ↔ MixesTypes ds ∨ ∃ d ∈ cs, d.typeOnly = true ∧ 2 ≤ d.named.length := by
  induction h with
  | nil => simp [MixesTypes]
  | @kept d d' ds cs ds' alike _ ih =>
    rw [mixesTypes_cons, mixesTypes_cons, ih, ← Import.mixes_normal, alike, Import.mixes_normal,
      or_assoc]
  | @switched d d' new ds cs ds' converted alike _ ih =>
    have plain : ¬d.Mixes := fun mixes => mixes.2.1 (Import.namedToDefault?_eq_some converted).1
    rw [mixesTypes_cons, mixesTypes_cons, ih, ← Import.mixes_normal, alike, Import.mixes_normal,
      mixes_of_namedToDefault? letters converted, or_iff_right plain, or_left_comm]
    simp only [List.mem_cons, or_and_right, exists_or, exists_eq_left]

end ModuleRepair
