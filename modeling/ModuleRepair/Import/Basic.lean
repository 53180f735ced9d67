import ModuleRepair.Text.Span

/-!
# Import declarations

An import declaration binds local names to what another module exports: a default binding, a
namespace binding and named bindings, each of which may be missing. An empty name counts as a
missing one.
-/
namespace ModuleRepair

open ModuleRepair.Text

/-- A text that is there and not empty. -/
def given (text : Option String) : Option String :=
  text.filter (· ≠ "")

theorem given_none : given none = none := rfl

theorem given_some {s : String} (h : s ≠ "") : given (some s) = some s := by
  simp [given, h]

theorem given_ne_empty {text : Option String} {s : String} (h : given text = some s) : s ≠ "" := by
  simp only [given, Option.filter_eq_some_iff] at h
  simpa using h.2

/-- One binding between the braces of an import declaration. -/
structure NamedImport where
  /-- The name under which the other module exports it. -/
  name : String
  /-- The local name, where it is another one. -/
  renamed : Option String := none
  /-- Whether the binding is marked as a type. -/
  isType : Bool := false
  deriving DecidableEq, Repr

namespace NamedImport

/-- The name that the binding has in the importing module. -/
def localName (b : NamedImport) : String :=
  (given b.renamed).getD b.name

end NamedImport

/-- An import declaration. -/
structure Import where
  specifier : String
  defaultName : Option String := none
  namespaceName : Option String := none
  named : List NamedImport := []
  typeOnly : Bool := false
  quote : String := "\""
  semicolon : Bool := true
  /-- The clause of attributes behind the specifier, as it is written. -/
  attributes : Option String := none
  /-- Where the declaration stands in the text it was read from. -/
  span : Span := ⟨0, 0⟩
  deriving DecidableEq, Repr

namespace Import

/-- The names that the declaration binds. -/
def localNames (d : Import) : List String :=
  d.named.map (·.localName) ++ (given d.defaultName).toList ++ (given d.namespaceName).toList

/-- Whether the declaration binds nothing. -/
def isSideEffect (d : Import) : Bool :=
  (given d.defaultName).isNone && (given d.namespaceName).isNone && d.named.isEmpty

theorem isSideEffect_iff (d : Import) : d.isSideEffect = true ↔ d.localNames = [] := by
  simp only [isSideEffect, localNames, Bool.and_eq_true, Option.isNone_iff_eq_none,
    List.isEmpty_iff, List.append_eq_nil_iff, List.map_eq_nil_iff, Option.toList_eq_nil_iff]
  constructor
  · rintro ⟨⟨h, h'⟩, h''⟩; exact ⟨⟨h'', h⟩, h'⟩
  · rintro ⟨⟨h'', h⟩, h'⟩; exact ⟨⟨h, h'⟩, h''⟩

end Import

end ModuleRepair
