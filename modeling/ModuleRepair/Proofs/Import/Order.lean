import ModuleRepair.Proofs.Import.Binding

/-!
# The order of named bindings

Bindings of distinct local names have one order only, however they were listed before
(`sortNamed_congr`), and bindings in order stay as they are (`sortNamed_eq_self`).
-/
namespace ModuleRepair

namespace NamedImport

variable {a b c : NamedImport}

theorem mayPrecede_iff : a.mayPrecede b = true ↔ ¬b.key < a.key := by
  simp only [mayPrecede, Bool.not_eq_true', decide_eq_false_iff_not]

theorem mayPrecede_trans (hab : a.mayPrecede b = true) (hbc : b.mayPrecede c = true) :
    a.mayPrecede c = true := by
  rw [mayPrecede_iff] at hab hbc ⊢
  exact List.not_lt.mpr (List.le_trans (List.not_lt.mp hab) (List.not_lt.mp hbc))

theorem mayPrecede_total (a b : NamedImport) : (a.mayPrecede b || b.mayPrecede a) = true := by
  rw [Bool.or_eq_true, mayPrecede_iff, mayPrecede_iff]
  exact (List.le_total a.key b.key).imp List.not_lt.mpr List.not_lt.mpr

theorem key_of_mayPrecede (hab : a.mayPrecede b = true) (hba : b.mayPrecede a = true) :
    a.key = b.key := by
  rw [mayPrecede_iff] at hab hba
  exact List.le_antisymm (List.not_lt.mp hab) (List.not_lt.mp hba)

end NamedImport

theorem sortNamed_pairwise (named : List NamedImport) :
    (sortNamed named).Pairwise fun a b => a.mayPrecede b = true := by
  unfold sortNamed
  apply List.pairwise_mergeSort
  · intro a b c
    exact NamedImport.mayPrecede_trans
  · exact NamedImport.mayPrecede_total

theorem mem_of_mem_sortNamed {named : List NamedImport} {b : NamedImport}
    (h : b ∈ sortNamed named) : b ∈ named :=
  (distinct_sublist named).mem ((sortNamed_perm named).mem_iff.mp h)

theorem exists_of_mem_fresh {specifier : String} {defaultName : Option String} {names : List String}
    {b : NamedImport} (h : b ∈ (Import.fresh specifier defaultName names).named) :
    ∃ name ∈ names, ⟨name, none, false⟩ = b :=
  List.mem_map.mp (mem_of_mem_sortNamed h)

/-- Nothing is bound anew when named bindings are put in order. -/
theorem mem_bindings_sorted {d : Import} {b : Binding}
    (h : b ∈ ({ d with named := sortNamed d.named } : Import).bindings) : b ∈ d.bindings := by
  simp only [Import.bindings, List.mem_append] at h ⊢
  refine h.imp_left (Or.imp_left fun named => ?_)
  obtain ⟨n, hn, rfl⟩ := List.mem_map.mp named
  exact List.mem_map_of_mem (mem_of_mem_sortNamed hn)

theorem sortNamed_perm_self {named : List NamedImport} (h : (named.map (·.localName)).Nodup) :
    (sortNamed named).Perm named := by
  have sorted := sortNamed_perm named
  rwa [distinct_eq_self h] at sorted

/-- The key of a binding tells its local name. -/
theorem localName_of_key {a b : NamedImport} (h : a.key = b.key) : a.localName = b.localName := by
  simp only [NamedImport.key, List.cons.injEq, String.toList_inj] at h
  exact h.2.2.1

theorem eq_of_localName {named : List NamedImport} (h : (named.map (·.localName)).Nodup)
    {a b : NamedImport} (ha : a ∈ named) (hb : b ∈ named) (same : a.localName = b.localName) :
    a = b := by
  induction named with
  | nil => simp at ha
  | cons c named ih =>
    simp only [List.map_cons, List.nodup_cons, List.mem_map, not_exists, not_and] at h
    rcases List.mem_cons.mp ha with rfl | inTail
    · rcases List.mem_cons.mp hb with rfl | hb
      · rfl
      · exact absurd same.symm (h.1 b hb)
    · rcases List.mem_cons.mp hb with rfl | hb
      · exact absurd same (h.1 a inTail)
      · exact ih h.2 inTail hb

theorem sortNamed_congr {a b : List NamedImport} (h : (a.map (·.localName)).Nodup)
    (same : a.Perm b) : sortNamed a = sortNamed b := by
  have hb : (b.map (·.localName)).Nodup := (same.map _).nodup h
  refine List.Perm.eq_of_pairwise ?_ (sortNamed_pairwise a) (sortNamed_pairwise b)
    ((sortNamed_perm_self h).trans (same.trans (sortNamed_perm_self hb).symm))
  intro x y hx hy xy yx
  refine eq_of_localName h ((sortNamed_perm_self h).mem_iff.mp hx)
    (same.mem_iff.mpr ((sortNamed_perm_self hb).mem_iff.mp hy)) ?_
  exact localName_of_key (NamedImport.key_of_mayPrecede xy yx)

theorem sortNamed_eq_nil {named : List NamedImport} : sortNamed named = [] ↔ named = [] := by
  constructor
  · intro h
    cases named with
    | nil => rfl
    | cons b rest =>
      have none := (sortNamed_perm (b :: rest)).symm
      rw [h] at none
      exact absurd none.eq_nil (by simp [distinct])
  · rintro rfl
    simp [sortNamed, distinct]

theorem sortNamed_localNames (named : List NamedImport) :
    ((sortNamed named).map (·.localName)).Nodup :=
  ((sortNamed_perm named).map _).symm.nodup (distinct_localNames named)

/-- Of two bindings in order with different local names, the first one has the smaller key. -/
theorem NamedImport.key_lt_of_mayPrecede {a b : NamedImport} (order : a.mayPrecede b = true)
    (apart : a.localName ≠ b.localName) : a.key < b.key := by
  rw [mayPrecede_iff, List.not_lt] at order
  rcases List.le_iff_lt_or_eq.mp order with less | same
  · exact less
  · exact absurd (localName_of_key same) apart

/-- Sorted bindings have increasing keys. -/
theorem sortNamed_increasing (named : List NamedImport) :
    (sortNamed named).Pairwise fun a b => a.key < b.key := by
  have apart : (sortNamed named).Pairwise fun a b => a.localName ≠ b.localName :=
    List.pairwise_map.mp (sortNamed_localNames named)
  refine ((sortNamed_pairwise named).and apart).imp ?_
  intro a b both
  exact NamedImport.key_lt_of_mayPrecede both.1 both.2

/-- Bindings in order stay as they are. -/
theorem sortNamed_eq_self {named : List NamedImport}
    (order : named.Pairwise fun a b => a.mayPrecede b = true)
    (names : (named.map (·.localName)).Nodup) : sortNamed named = named := by
  rw [sortNamed, distinct_eq_self names, List.mergeSort_of_pairwise order]

theorem NamedImport.normal_key (b : NamedImport) : b.normal.key = b.key := by
  rw [key, normal_name, normal_localName, key]

theorem NamedImport.normal_mayPrecede (a b : NamedImport) :
    a.normal.mayPrecede b.normal = a.mayPrecede b := by
  simp only [mayPrecede, normal_key]

theorem distinct_normal (named : List NamedImport) :
    (distinct named).map (·.normal) = distinct (named.map (·.normal)) := by
  induction named with
  | nil => rfl
  | cons b rest ih => simp [distinct, ← ih, List.filter_map, Function.comp_def]

/-- Bindings are put in order alike, however their names are written. -/
theorem sortNamed_normal (named : List NamedImport) :
    (sortNamed named).map (·.normal) = sortNamed (named.map (·.normal)) := by
  rw [sortNamed, sortNamed, ← distinct_normal]
  exact List.map_mergeSort fun a _ b _ => (NamedImport.normal_mayPrecede a b).symm

/-- Bindings that are read back in order are in order. -/
theorem sortNamed_eq_of_normal {named : List NamedImport}
    (same : (sortNamed named).map (·.normal) = named.map (·.normal)) : sortNamed named = named := by
  have names : (sortNamed named).map (·.localName) = named.map (·.localName) := by
    simpa [Function.comp_def] using congrArg (List.map (·.localName)) same
  have nodup : (named.map (·.localName)).Nodup := names ▸ sortNamed_localNames named
  refine List.ext_getElem (by simpa using congrArg List.length names) fun i hi hi' => ?_
  have here := congrArg (fun all => all[i]?) names
  simp only [List.getElem?_map, List.getElem?_eq_getElem, hi, hi', Option.map_some,
    Option.some.injEq] at here
  exact eq_of_localName nodup (mem_of_mem_sortNamed (List.getElem_mem hi)) (List.getElem_mem hi')
    here

end ModuleRepair
