import ModuleRepair.Import.Basic
import ModuleRepair.Text.Cased

/-!
# The order of named bindings

Named bindings are kept in one order: by name without regard to case, then by name, then by local
name. Of several bindings with one local name the first is kept, so that the order is strict
(`distinct_localNames`, `sortNamed_perm`).
-/
namespace ModuleRepair

open ModuleRepair.Text

namespace NamedImport

/-- The sort key of a binding. -/
def key (b : NamedImport) : List (List Char) :=
  [lower b.name.toList, b.name.toList, b.localName.toList]

/-- Whether a binding may stand before another one. -/
def mayPrecede (a b : NamedImport) : Bool :=
  !decide (b.key < a.key)

end NamedImport

/-- The first binding of each local name. -/
def distinct : List NamedImport → List NamedImport
  | [] => []
  | b :: rest => b :: (distinct rest).filter (·.localName ≠ b.localName)

/-- The bindings in order, each local name once. -/
def sortNamed (named : List NamedImport) : List NamedImport :=
  (distinct named).mergeSort NamedImport.mayPrecede

theorem distinct_sublist (named : List NamedImport) : (distinct named).Sublist named := by
  induction named with
  | nil => exact .slnil
  | cons b rest ih => exact (List.filter_sublist.trans ih).cons_cons b

theorem distinct_localNames (named : List NamedImport) :
    ((distinct named).map (·.localName)).Nodup := by
  induction named with
  | nil => simp [distinct]
  | cons b rest ih =>
    simp only [distinct, List.map_cons, List.nodup_cons]
    refine ⟨by simp, ?_⟩
    exact ih.sublist (List.filter_sublist.map _)

theorem distinct_eq_self {named : List NamedImport} (h : (named.map (·.localName)).Nodup) :
    distinct named = named := by
  induction named with
  | nil => rfl
  | cons b rest ih =>
    simp only [List.map_cons, List.nodup_cons, List.mem_map, not_exists, not_and] at h
    rw [distinct, ih h.2]
    congr 1
    rw [List.filter_eq_self]
    intro c hc
    simpa using h.1 c hc

theorem sortNamed_perm (named : List NamedImport) : (sortNamed named).Perm (distinct named) :=
  List.mergeSort_perm _ _

end ModuleRepair
