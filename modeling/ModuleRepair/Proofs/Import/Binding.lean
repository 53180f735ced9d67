import ModuleRepair.Import.Render
import ModuleRepair.Import.Rewrite

/-!
# What imports bind

A binding says what a local name stands for. Two declarations can differ in how they are written and
still bind the same; `Import.normal` is the form in which a declaration is read back from its own
rendering.
-/
namespace ModuleRepair

/-- What part of a module is bound. -/
inductive BindingKind where
  | namedExport
  | defaultExport
  | allExports
  deriving DecidableEq, Repr

/-- What a local name stands for. -/
structure Binding where
  specifier : String
  /-- Whether the whole declaration imports types only. -/
  typeOnly : Bool
  kind : BindingKind
  /-- The name under which the other module exports it. -/
  exported : String
  localName : String
  /-- Whether the binding itself is marked as a type. -/
  isType : Bool := false
  deriving DecidableEq, Repr

theorem given_given (text : Option String) : given (given text) = given text := by
  simp [given, Option.filter_filter]

namespace NamedImport

/-- The binding with its local name only where that is another one. -/
def normal (b : NamedImport) : NamedImport :=
  { b with renamed := (given b.renamed).filter (· ≠ b.name) }

@[simp] theorem normal_name (b : NamedImport) : b.normal.name = b.name := rfl

@[simp] theorem normal_isType (b : NamedImport) : b.normal.isType = b.isType := rfl

/-- The local name is not empty, so that it is still there after another look. -/
theorem normal_renamed (b : NamedImport) :
    given b.normal.renamed = (given b.renamed).filter (· ≠ b.name) := by
  cases h : given b.renamed with
  | none => simp [normal, h, given_none]
  | some a =>
    by_cases same : a = b.name
    · simp [normal, h, same, Option.filter_some, given_none]
    · simp [normal, h, same, Option.filter_some, given_some (given_ne_empty h)]

@[simp] theorem normal_localName (b : NamedImport) : b.normal.localName = b.localName := by
  rw [localName, localName, normal_renamed, normal_name]
  cases given b.renamed with
  | none => rfl
  | some a => by_cases same : a = b.name <;> simp [same, Option.filter_some]

@[simp] theorem normal_render (b : NamedImport) : b.normal.render = b.render := by
  rw [render, render, normal_renamed]
  cases given b.renamed with
  | none => rfl
  | some a => by_cases same : a = b.name <;> simp [same, Option.filter_some] <;> rfl

@[simp] theorem normal_normal (b : NamedImport) : b.normal.normal = b.normal := by
  change { b.normal with renamed := (given b.normal.renamed).filter (· ≠ b.name) } = b.normal
  rw [normal_renamed, Option.filter_filter]
  simp [normal]

/-- A binding that is renamed only where it has to be, keeps its local name. -/
theorem localName_renamed {localName : String} (letters : localName ≠ "") (name : String) :
    NamedImport.localName ⟨name, (given (some localName)).filter (· ≠ name), false⟩ =
      localName := by
  have same : NamedImport.localName ⟨name, (given (some localName)).filter (· ≠ name), false⟩ =
      NamedImport.localName ⟨name, some localName, false⟩ :=
    normal_localName ⟨name, some localName, false⟩
  rw [same, NamedImport.localName, given_some letters, Option.getD_some]

end NamedImport

namespace Import

/-- What a named binding of a declaration stands for. -/
def bindNamed (d : Import) (b : NamedImport) : Binding :=
  ⟨d.specifier, d.typeOnly, .namedExport, b.name, b.localName, b.isType⟩

/-- What the default binding of a declaration stands for. -/
def bindDefault (d : Import) (name : String) : Binding :=
  ⟨d.specifier, d.typeOnly, .defaultExport, "default", name, false⟩

/-- What the namespace binding of a declaration stands for. -/
def bindNamespace (d : Import) (name : String) : Binding :=
  ⟨d.specifier, d.typeOnly, .allExports, "*", name, false⟩

/-- The bindings of a declaration. -/
def bindings (d : Import) : List Binding :=
  d.named.map d.bindNamed ++ (given d.defaultName).toList.map d.bindDefault ++
    (given d.namespaceName).toList.map d.bindNamespace

theorem bindings_localName (d : Import) : d.bindings.map (·.localName) = d.localNames := by
  simp [bindings, localNames, bindNamed, bindDefault, bindNamespace, Function.comp_def]

/-- The declaration as it is read back from its own rendering, apart from its place. -/
def normal (d : Import) : Import where
  specifier := d.specifier
  defaultName := given d.defaultName
  namespaceName := given d.namespaceName
  named := d.named.map (·.normal)
  typeOnly := d.typeOnly && !d.isSideEffect
  quote := if d.quote = "" then "\"" else d.quote
  semicolon := d.semicolon
  attributes := given d.attributes

@[simp] theorem normal_specifier (d : Import) : d.normal.specifier = d.specifier := rfl

@[simp] theorem normal_isSideEffect (d : Import) : d.normal.isSideEffect = d.isSideEffect := by
  simp [isSideEffect, normal, given_given]

@[simp] theorem normal_bindings (d : Import) : d.normal.bindings = d.bindings := by
  by_cases side : d.isSideEffect = true
  · simp only [isSideEffect, Bool.and_eq_true, Option.isNone_iff_eq_none, List.isEmpty_iff] at side
    obtain ⟨⟨hd, hn⟩, he⟩ := side
    simp [bindings, normal, hd, hn, he, given_none]
  · have typeOnly : d.normal.typeOnly = d.typeOnly := by simp [normal, side]
    have named : d.normal.bindNamed ∘ NamedImport.normal = d.bindNamed := by
      funext b; simp [bindNamed, typeOnly]
    have default : d.normal.bindDefault = d.bindDefault := by
      funext name; simp [bindDefault, typeOnly]
    have all : d.normal.bindNamespace = d.bindNamespace := by
      funext name; simp [bindNamespace, typeOnly]
    rw [bindings, bindings, ← named, default, all]
    simp [normal, given_given]

@[simp] theorem normal_render (d : Import) : d.normal.render = d.render := by
  have clauses : d.normal.clauses = d.clauses := by
    simp [Import.clauses, normal, given_given, Function.comp_def]
  have specifier : d.normal.quotedSpecifier = d.quotedSpecifier := by
    simp only [quotedSpecifier, normal]
    split <;> simp_all
  have noClauses : d.isSideEffect = true → d.clauses = [] := by
    intro side
    simp only [isSideEffect, Bool.and_eq_true, Option.isNone_iff_eq_none, List.isEmpty_iff] at side
    simp [Import.clauses, side]
  have attributes : given d.normal.attributes = given d.attributes := given_given d.attributes
  have semicolon : d.normal.semicolon = d.semicolon := rfl
  have typeOnly : d.normal.typeOnly = (d.typeOnly && !d.isSideEffect) := rfl
  simp only [render, clauses, specifier, attributes, semicolon, typeOnly]
  cases side : d.isSideEffect with
  | true => rw [noClauses side]
  | false => simp

@[simp] theorem normal_normal (d : Import) : d.normal.normal = d.normal := by
  have quote : (if d.normal.quote = "" then "\"" else d.normal.quote) = d.normal.quote := by
    simp only [normal]
    split <;> simp_all
  have typeOnly : (d.normal.typeOnly && !d.normal.isSideEffect) = d.normal.typeOnly := by
    rw [normal_isSideEffect]
    change (d.typeOnly && !d.isSideEffect && !d.isSideEffect) = (d.typeOnly && !d.isSideEffect)
    rw [Bool.and_assoc, Bool.and_self]
  have names : given d.normal.defaultName = d.normal.defaultName ∧
      given d.normal.namespaceName = d.normal.namespaceName ∧
      given d.normal.attributes = d.normal.attributes :=
    ⟨given_given _, given_given _, given_given _⟩
  have named : d.normal.named.map (·.normal) = d.normal.named := by
    simp [normal, Function.comp_def]
  rw [normal, quote, typeOnly, names.1, names.2.1, names.2.2, named]
  rfl

end Import

/-- The bindings of several declarations. -/
def bindingsOf (ds : List Import) : List Binding :=
  ds.flatMap (·.bindings)

/-- The names that several declarations bind. -/
def namesOf (ds : List Import) : List String :=
  ds.flatMap (·.localNames)

@[simp] theorem bindingsOf_singleton (d : Import) : bindingsOf [d] = d.bindings := by
  simp [bindingsOf]

theorem bindingsOf_append (a b : List Import) :
    bindingsOf (a ++ b) = bindingsOf a ++ bindingsOf b :=
  List.flatMap_append

theorem bindingsOf_localName (ds : List Import) :
    (bindingsOf ds).map (·.localName) = namesOf ds := by
  simp [bindingsOf, namesOf, List.map_flatMap, Import.bindings_localName]

theorem bindingsOf_perm {a b : List Import} (h : a.Perm b) :
    (bindingsOf a).Perm (bindingsOf b) :=
  h.flatMap_right _

/-- One binding among those of all declarations. -/
theorem bindingsOf_around {ds front middle back : List Import} {b : Binding} {rest : List Binding}
    (split : bindingsOf ds = bindingsOf (front ++ middle ++ back))
    (h : (bindingsOf middle).Perm (b :: rest)) :
    (bindingsOf ds).Perm (b :: (rest ++ (bindingsOf front ++ bindingsOf back))) := by
  rw [split, bindingsOf_append, bindingsOf_append, ← List.cons_append]
  refine (List.perm_append_comm.append_right _).trans ?_
  rw [List.append_assoc]
  exact h.append_right _

theorem namesOf_sublist {a b : List Import} (h : a.Sublist b) :
    (namesOf a).Sublist (namesOf b) := by
  induction h with
  | slnil => exact .slnil
  | cons d _ ih => exact ih.trans (List.sublist_append_right _ _)
  | cons_cons d _ ih => exact (List.Sublist.refl d.localNames).append ih

theorem bindingsOf_normal (ds : List Import) : bindingsOf (ds.map (·.normal)) = bindingsOf ds := by
  simp [bindingsOf, List.flatMap_map]

end ModuleRepair
