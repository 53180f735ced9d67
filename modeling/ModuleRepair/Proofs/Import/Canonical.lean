import Mathlib.Data.List.Sort
import ModuleRepair.Proofs.Import.Order

/-!
# The one form of a list of bindings

Three conditions settle what becomes of a list of named bindings: each local name is bound once, it
is bound as the list first binds it, and the bindings stand in strict order (`canonical_iff`). So
sorting again changes nothing, and the order in which distinct bindings are listed does not matter
(`sortNamed_canonical`).
-/
namespace ModuleRepair

open ModuleRepair.Text

namespace NamedImport

/-- The order of bindings: by name without regard to case, then by name, then by local name. -/
def Precedes (a b : NamedImport) : Prop :=
  lowerString a.name < lowerString b.name ∨ lowerString a.name = lowerString b.name ∧
    (a.name < b.name ∨ a.name = b.name ∧ a.localName < b.localName)

theorem precedes_iff_key {a b : NamedImport} : a.Precedes b ↔ a.key < b.key := by
  have order (s t : String) : s < t ↔ s.toList < t.toList := Iff.rfl
  simp only [Precedes, key, List.cons_lt_cons_iff, List.not_lt_nil, and_false, or_false, order,
    lowerString, String.toList_ofList, String.ofList_inj, String.toList_inj]

instance : Std.Irrefl Precedes :=
  ⟨fun _ before => List.lt_irrefl _ (precedes_iff_key.mp before)⟩

instance : Std.Antisymm Precedes :=
  ⟨fun _ _ before after =>
    absurd (precedes_iff_key.mp after) (List.lt_asymm (precedes_iff_key.mp before))⟩

end NamedImport

/-- A list of bindings in the one form of another list. -/
structure Canonical (named sorted : List NamedImport) : Prop where
  /-- No local name is bound twice. -/
  distinct : (sorted.map (·.localName)).Nodup
  /-- Each local name is bound as the other list first binds it, and no other name is bound. -/
  first : ∀ x, sorted.filter (·.localName = x) = (named.find? (·.localName = x)).toList
  ordered : sorted.Pairwise NamedImport.Precedes

/-- The first binding of a local name is kept, and no other one of it. -/
theorem filter_distinct (named : List NamedImport) (x : String) :
    (distinct named).filter (·.localName = x) = (named.find? (·.localName = x)).toList := by
  induction named with
  | nil => rfl
  | cons b rest ih =>
    rw [distinct, List.filter_cons, List.find?_cons]
    by_cases same : b.localName = x
    · have others : ((distinct rest).filter (·.localName ≠ b.localName)).filter
          (·.localName = x) = [] := by
        rw [List.filter_eq_nil_iff]
        intro c hc
        simpa [same] using (List.mem_filter.mp hc).2
      rw [others]
      simp [same]
    · have kept : ((distinct rest).filter (·.localName ≠ b.localName)).filter
          (·.localName = x) = (distinct rest).filter (·.localName = x) := by
        rw [List.filter_filter]
        refine List.filter_congr fun c _ => ?_
        by_cases hc : c.localName = x <;> simp [hc, Ne.symm same]
      rw [kept, ih]
      simp [same]

theorem filter_sortNamed (named : List NamedImport) (x : String) :
    (sortNamed named).filter (·.localName = x) = (named.find? (·.localName = x)).toList := by
  have same := (sortNamed_perm named).filter (·.localName = x)
  rw [filter_distinct] at same
  cases found : named.find? (·.localName = x) with
  | none => simpa [found] using same
  | some b => simpa [found] using same

theorem canonical_sortNamed (named : List NamedImport) : Canonical named (sortNamed named) where
  distinct := sortNamed_localNames named
  first := filter_sortNamed named
  ordered := (sortNamed_increasing named).imp NamedImport.precedes_iff_key.mpr

namespace Canonical

variable {named sorted other : List NamedImport}

theorem mem_iff (h : Canonical named sorted) (b : NamedImport) :
    b ∈ sorted ↔ named.find? (·.localName = b.localName) = some b := by
  rw [← Option.mem_toList, ← h.first]
  simp

/-- There is one such list only. -/
theorem unique (h : Canonical named sorted) (h' : Canonical named other) : sorted = other :=
  h.ordered.eq_of_mem_iff h'.ordered fun b => by rw [h.mem_iff, h'.mem_iff]

end Canonical

theorem canonical_iff {named sorted : List NamedImport} :
    Canonical named sorted ↔ sorted = sortNamed named := by
  constructor
  · intro h
    exact h.unique (canonical_sortNamed named)
  · rintro rfl
    exact canonical_sortNamed named

/-- Lists of distinct local names become the same list just when they hold the same bindings. -/
theorem sortNamed_eq_iff_perm {a b : List NamedImport} (ha : (a.map (·.localName)).Nodup)
    (hb : (b.map (·.localName)).Nodup) : sortNamed a = sortNamed b ↔ a.Perm b := by
  constructor
  · intro same
    exact (sortNamed_perm_self ha).symm.trans (same ▸ sortNamed_perm_self hb)
  · exact sortNamed_congr ha

/-- For every list of bindings: in order, it binds each of its local names once, as it first binds
them, and no others, strictly ordered by name without regard to case, then by name, then by local
name; this is the only such list. In order again, it stays as it is. And lists of distinct local
names become the same list just when one is a permutation of the other. -/
theorem sortNamed_canonical (named : List NamedImport) :
    (∀ sorted, Canonical named sorted ↔ sorted = sortNamed named) ∧
      sortNamed (sortNamed named) = sortNamed named ∧
      ∀ other, (named.map (·.localName)).Nodup → (other.map (·.localName)).Nodup →
        (sortNamed named = sortNamed other ↔ named.Perm other) := by
  refine ⟨fun sorted => canonical_iff, ?_, fun other => sortNamed_eq_iff_perm⟩
  exact sortNamed_eq_self (sortNamed_pairwise named) (sortNamed_localNames named)

/-- Bindings of names that differ by case; the last one ends with a capital sigma. -/
def wordBindings : List NamedImport :=
  [⟨"λόγος", none, false⟩, ⟨"Logos", some "word", true⟩, ⟨"logos", none, false⟩,
    ⟨"ΛΌΓΟΣ", some "Word", false⟩]

theorem wordBindings_canonical :
    (wordBindings.map (·.localName)).Nodup ∧ (wordBindings.reverse.map (·.localName)).Nodup ∧
      (∀ sorted, Canonical wordBindings sorted ↔ sorted = sortNamed wordBindings) ∧
      sortNamed (sortNamed wordBindings) = sortNamed wordBindings ∧
      (sortNamed wordBindings = sortNamed wordBindings.reverse ↔
        wordBindings.Perm wordBindings.reverse) := by
  obtain ⟨only, again, same⟩ := sortNamed_canonical wordBindings
  exact ⟨by decide, by decide, only, again, same _ (by decide) (by decide)⟩

end ModuleRepair
