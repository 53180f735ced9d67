import Mathlib.Data.List.Basic
import ModuleRepair.Proofs.Script.Nodes
import ModuleRepair.Proofs.Script.Opening

/-!
# The walk over the nodes of a module

The exports and declarations of a module can be collected by one walk over its nodes, which puts
what it meets into three places: the default export, unless there is one already, and the lists of
the named exports and of the declarations. A step adds what its node provides (`visit_gain`), so a
walk adds what its nodes provide, one after the other (`walk_gain`), and an outline holds what the
walk over the nodes of its text finds (`outline?_walk`).

Two forms provide less than they mean: a declaration behind `declare`, and everything of another
module under the name of the default export. `meant_iff` says when a walk misses nothing.
-/
namespace ModuleRepair.Script

open ModuleRepair.Text

/-! ## What a node provides -/

/-- The default export of what stands behind `export default`. -/
def DefaultNode.provides (span : Span) : DefaultNode → DefaultExport
  | declaration d =>
    match d.names with
    | name :: _ => ⟨.declaration, some name, span⟩
    | [] => ⟨.expression, none, span⟩
  | identifier name => ⟨.identifier, some name, span⟩
  | expression => ⟨.expression, none, span⟩

/-- The default export of a name in braces. The default export of another module has no name
here. -/
def SpecifierNode.provides (reexport : Bool) (span : Span) (x : SpecifierNode) : DefaultExport :=
  if reexport then
    ⟨.reexport, if x.localName = "default" then none else some x.localName, span⟩
  else ⟨.specifier, some x.localName, span⟩

namespace ExportNode

/-- All default exports that the statement provides. -/
def defaults (span : Span) : ExportNode → List DefaultExport
  | byDefault value => [value.provides span]
  | clause specifiers source =>
    (specifiers.filter (·.exportedName = "default")).map (·.provides source.isSome span)
  | declaration _ | all _ | assignment | globalName | ambient _ | importAlias => []

/-- The names that the statement exports, the default one of braces apart. -/
def named : ExportNode → List String
  | declaration d => d.names
  | clause specifiers _ => (specifiers.map (·.exportedName)).filter (· ≠ "default")
  | all name => (name.map unquoted).toList
  | byDefault _ | assignment | globalName | ambient _ | importAlias => []

end ExportNode

/-- The names of a declaration, each with what is known of it. -/
def DeclarationNode.entries (exported : Bool) (d : DeclarationNode) : List Declaration :=
  d.names.map fun name => ⟨name, d.kind, d.span, exported⟩

namespace TopLevel

/-- All default exports that a statement provides. -/
def defaults (t : TopLevel) : List DefaultExport :=
  match t.node with
  | .exporting e => e.defaults t.span
  | _ => []

/-- The names that a statement exports. -/
def named (t : TopLevel) : List String :=
  match t.node with
  | .exporting e => e.named
  | _ => []

/-- The declarations of a statement. Of those that are not exported only some kinds count, and what
is exported by default is none. -/
def declared (t : TopLevel) : List Declaration :=
  match t.node with
  | .exporting (.declaration d) => d.entries true
  | .declaration d => if d.kind.countsAlone then d.entries false else []
  | _ => []

/-! ## What is passed over -/

/-- The declarations that a statement exports behind `declare`. -/
def passedOver (t : TopLevel) : List Declaration :=
  match t.node with
  | .exporting (.ambient (some d)) => d.entries true
  | _ => []

/-- Whether a statement exports everything of another module under the name of the default
export. -/
def sharesDefault (t : TopLevel) : Bool :=
  match t.node with
  | .exporting (.all (some name)) => unquoted name = "default"
  | _ => false

/-- All default exports of a statement, with the one that holds everything of another module. -/
def meantDefaults (t : TopLevel) : List DefaultExport :=
  if t.sharesDefault then [⟨.reexport, none, t.span⟩] else t.defaults

/-- The names that a statement exports, also those behind `declare`. -/
def meantNamed (t : TopLevel) : List String :=
  t.named ++ t.passedOver.map (·.name)

/-- The declarations of a statement, also those behind `declare`. -/
def meantDeclared (t : TopLevel) : List Declaration :=
  t.declared ++ t.passedOver

end TopLevel

/-! ## Walking -/

/-- What a walk has found so far. -/
structure Findings where
  defaultExport : Option DefaultExport
  namedExports : List String
  declarations : List Declaration
  deriving DecidableEq, Repr

namespace Findings

/-- A default export is met; it counts if it is the first one. -/
def meetDefault (x : Findings) (d : DefaultExport) : Findings :=
  match x.defaultExport with
  | some _ => x
  | none => { x with defaultExport := some d }

def addNamed (x : Findings) (name : String) : Findings :=
  { x with namedExports := x.namedExports ++ [name] }

def addDeclaration (x : Findings) (d : Declaration) : Findings :=
  { x with declarations := x.declarations ++ [d] }

/-- What has been found when more is provided behind it. -/
def gain (x : Findings) (defaults : List DefaultExport) (named : List String)
    (declared : List Declaration) : Findings :=
  ⟨x.defaultExport <|> defaults.head?, x.namedExports ++ named, x.declarations ++ declared⟩

variable (x : Findings)

theorem meetDefault_gain (d : DefaultExport) : x.meetDefault d = x.gain [d] [] [] := by
  rcases x with ⟨known, named, declared⟩
  cases known <;> simp [meetDefault, gain]

theorem addNamed_gain (name : String) : x.addNamed name = x.gain [] [name] [] := by
  simp [addNamed, gain]

theorem addDeclaration_gain (d : Declaration) : x.addDeclaration d = x.gain [] [] [d] := by
  simp [addDeclaration, gain]

theorem gain_nil : x.gain [] [] [] = x := by
  simp [gain]

theorem gain_gain (defaults defaults' : List DefaultExport) (named named' : List String)
    (declared declared' : List Declaration) :
    (x.gain defaults named declared).gain defaults' named' declared' =
      x.gain (defaults ++ defaults') (named ++ named') (declared ++ declared') := by
  simp [gain, List.head?_append, Option.or_assoc]

/-- Where each step adds what it is given, a run of steps adds what they are given one after the
other. -/
theorem foldl_gain {α : Type} {step : Findings → α → Findings} {defaults : α → List DefaultExport}
    {named : α → List String} {declared : α → List Declaration}
    (one : ∀ x a, step x a = x.gain (defaults a) (named a) (declared a)) (l : List α) :
    l.foldl step x =
      x.gain (l.flatMap defaults) (l.flatMap named) (l.flatMap declared) := by
  induction l generalizing x with
  | nil => exact (gain_nil x).symm
  | cons a l ih =>
    rw [List.foldl_cons, ih, one, gain_gain]
    simp only [List.flatMap_cons]

end Findings

/-- A name in braces is met. -/
def visitSpecifier (reexport : Bool) (span : Span) (x : Findings) (specifier : SpecifierNode) :
    Findings :=
  if specifier.exportedName ≠ "default" then x.addNamed specifier.exportedName
  else x.meetDefault (specifier.provides reexport span)

/-- A name of an exported declaration is met. -/
def visitExported (d : DeclarationNode) (x : Findings) (name : String) : Findings :=
  (x.addNamed name).addDeclaration ⟨name, d.kind, d.span, true⟩

def visitExport (span : Span) (x : Findings) : ExportNode → Findings
  | .byDefault value => x.meetDefault (value.provides span)
  | .declaration d => d.names.foldl (visitExported d) x
  | .clause specifiers source => specifiers.foldl (visitSpecifier source.isSome span) x
  | .all (some name) => x.addNamed (unquoted name)
  | .all none | .assignment | .globalName | .ambient _ | .importAlias => x

def visit (x : Findings) (t : TopLevel) : Findings :=
  match t.node with
  | .exporting e => visitExport t.span x e
  | .declaration d =>
    if d.kind.countsAlone then
      d.names.foldl (fun x name => x.addDeclaration ⟨name, d.kind, d.span, false⟩) x
    else x
  | _ => x

/-- The walk over the nodes of a module. -/
def walk (nodes : List TopLevel) : Findings :=
  nodes.foldl visit ⟨none, [], []⟩

section

open Findings

theorem flatMap_nothing {α β : Type} (l : List α) : l.flatMap (fun _ => ([] : List β)) = [] :=
  List.flatMap_eq_nil_iff.mpr fun _ _ => rfl

variable (x : Findings) (span : Span)

/-- Of the names in braces, the default ones are met and the others are added. -/
theorem visitSpecifiers_gain (reexport : Bool) (specifiers : List SpecifierNode) :
    specifiers.foldl (visitSpecifier reexport span) x =
      x.gain ((specifiers.filter (·.exportedName = "default")).map (·.provides reexport span))
        ((specifiers.map (·.exportedName)).filter (· ≠ "default")) [] := by
  induction specifiers generalizing x with
  | nil => exact (gain_nil x).symm
  | cons specifier rest ih =>
    rw [List.foldl_cons, ih, visitSpecifier]
    by_cases default : specifier.exportedName = "default"
    · simp [default, meetDefault_gain, gain_gain]
    · simp [default, addNamed_gain, gain_gain]

/-- Each name of an exported declaration is exported and declared. -/
theorem visitExported_gain (d : DeclarationNode) :
    d.names.foldl (visitExported d) x = x.gain [] d.names (d.entries true) := by
  have one (x : Findings) (name : String) :
      visitExported d x name = x.gain [] [name] [⟨name, d.kind, d.span, true⟩] := by
    simp [visitExported, addNamed_gain, addDeclaration_gain, gain_gain]
  rw [foldl_gain x one, flatMap_nothing, List.flatMap_singleton', DeclarationNode.entries,
    List.map_eq_flatMap]

theorem addDeclarations_gain (d : DeclarationNode) (exported : Bool) :
    d.names.foldl (fun x name => x.addDeclaration ⟨name, d.kind, d.span, exported⟩) x =
      x.gain [] [] (d.entries exported) := by
  have one (x : Findings) (name : String) :
      x.addDeclaration ⟨name, d.kind, d.span, exported⟩ =
        x.gain [] [] [⟨name, d.kind, d.span, exported⟩] := addDeclaration_gain x _
  rw [foldl_gain x one, flatMap_nothing, flatMap_nothing, DeclarationNode.entries,
    List.map_eq_flatMap]

theorem visitExport_gain (e : ExportNode) :
    visitExport span x e =
      x.gain (e.defaults span) e.named (TopLevel.declared ⟨.exporting e, span⟩) := by
  cases e with
  | byDefault value => exact meetDefault_gain x _
  | declaration d => exact visitExported_gain x d
  | clause specifiers source => exact visitSpecifiers_gain x span _ specifiers
  | all name =>
    cases name with
    | none => exact (gain_nil x).symm
    | some name => exact addNamed_gain x _
  | assignment => exact (gain_nil x).symm
  | globalName => exact (gain_nil x).symm
  | ambient d => exact (gain_nil x).symm
  | importAlias => exact (gain_nil x).symm

/-- A step of the walk adds what the node provides. -/
theorem visit_gain (t : TopLevel) : visit x t = x.gain t.defaults t.named t.declared := by
  rcases t with ⟨node, span⟩
  cases node with
  | exporting e => exact visitExport_gain x span e
  | declaration d =>
    cases counts : d.kind.countsAlone with
    | true =>
      simp only [visit, TopLevel.defaults, TopLevel.named, TopLevel.declared, counts, if_true]
      exact addDeclarations_gain x d false
    | false => simp [visit, TopLevel.defaults, TopLevel.named, TopLevel.declared, counts, gain_nil]
  | hashBang => exact (gain_nil x).symm
  | directive => exact (gain_nil x).symm
  | importing d => exact (gain_nil x).symm
  | other => exact (gain_nil x).symm

end

/-- A walk finds what the nodes provide, and of the default exports the first one. -/
theorem walk_gain (nodes : List TopLevel) : walk nodes =
    ⟨(nodes.flatMap (·.defaults)).head?, nodes.flatMap (·.named), nodes.flatMap (·.declared)⟩ := by
  rw [walk, Findings.foldl_gain _ visit_gain]
  simp [Findings.gain]

/-! ## Outlines -/

/-- The exports and declarations of an outline. -/
def Outline.findings (o : Outline) : Findings :=
  ⟨o.defaultExport, o.namedExports, o.declarations⟩

section

variable (t : TopLevel)

theorem defaultExport?_item : t.item.defaultExport? = t.defaults.head? := by
  rcases t with ⟨node, span⟩
  cases node with
  | exporting e =>
    cases e with
    | byDefault value =>
      cases value with
      | declaration d =>
        simp only [TopLevel.item, StatementNode.statement, ExportNode.statement, DefaultNode.value,
          Item.defaultExport?, TopLevel.defaults, ExportNode.defaults, DefaultNode.provides]
        cases d.names <;> rfl
      | identifier name => rfl
      | expression => rfl
    | clause specifiers source =>
      simp only [TopLevel.item, StatementNode.statement, ExportNode.statement,
        Item.defaultExport?, TopLevel.defaults, ExportNode.defaults, List.head?_map,
        List.head?_filter, List.find?_map, Option.map_map]
      rfl
    | _ => rfl
  | importing d => cases d <;> rfl
  | declaration d =>
    simp only [TopLevel.item, StatementNode.statement, Item.defaultExport?, TopLevel.defaults]
    cases d.kind.countsAlone <;> rfl
  | _ => rfl

theorem namedExports_item : t.item.namedExports = t.named := by
  rcases t with ⟨node, span⟩
  cases node with
  | exporting e =>
    cases e with
    | clause specifiers source =>
      simp only [TopLevel.item, StatementNode.statement, ExportNode.statement, Item.namedExports,
        TopLevel.named, ExportNode.named, List.map_map]
      rfl
    | _ => rfl
  | importing d => cases d <;> rfl
  | declaration d =>
    simp only [TopLevel.item, StatementNode.statement, Item.namedExports, TopLevel.named]
    cases d.kind.countsAlone <;> rfl
  | _ => rfl

theorem declarations_item : t.item.declarations = t.declared := by
  rcases t with ⟨node, span⟩
  cases node with
  | exporting e => cases e <;> rfl
  | importing d => cases d <;> rfl
  | declaration d =>
    simp only [TopLevel.item, StatementNode.statement, Item.declarations, TopLevel.declared]
    cases d.kind.countsAlone <;> rfl
  | _ => rfl

end

theorem findings_nodes (nodes : List TopLevel) :
    (Outline.ofItems (nodes.map TopLevel.item)).findings = walk nodes := by
  simp only [walk_gain, Outline.findings, Outline.ofItems, List.findSome?_map, List.flatMap_map,
    List.head?_flatMap, Function.comp_def, defaultExport?_item, namedExports_item,
    declarations_item]

/-- The outline of a text holds what the walk over its nodes finds. -/
theorem outline?_walk (l : Language) (text : String) :
    (outline? l text).map Outline.findings = (nodes? l text.toList).map walk := by
  rw [outline?, items?_nodes, Option.map_map, Option.map_map]
  exact congrArg (Option.map · _) (funext findings_nodes)

/-! ## What is missed -/

/-- The exports and declarations that the nodes are meant to have. -/
def meant (nodes : List TopLevel) : Findings :=
  ⟨(nodes.flatMap (·.meantDefaults)).head?, nodes.flatMap (·.meantNamed),
    nodes.flatMap (·.meantDeclared)⟩

/-- Lists to which more is added are the same just if nothing is added. -/
theorem flatMap_append_iff {α β : Type} (f g : α → List β) (l : List α) :
    l.flatMap f = l.flatMap (fun a => f a ++ g a) ↔ ∀ a ∈ l, g a = [] := by
  have count : (l.flatMap fun a => f a ++ g a).length =
      (l.flatMap f).length + (l.flatMap g).length := by
    induction l with
    | nil => rfl
    | cons a l ih =>
      simp only [List.flatMap_cons, List.length_append, ih]
      omega
  constructor
  · intro same
    rw [← same] at count
    exact List.flatMap_eq_nil_iff.mp (List.length_eq_zero_iff.mp (by omega))
  · intro none
    exact List.flatMap_congr fun a there => by rw [none a there, List.append_nil]

theorem DefaultNode.provides_span (span : Span) (value : DefaultNode) :
    (value.provides span).span = span := by
  cases value with
  | declaration d =>
    simp only [DefaultNode.provides]
    split <;> rfl
  | identifier name => rfl
  | expression => rfl

theorem SpecifierNode.provides_span (reexport : Bool) (span : Span) (x : SpecifierNode) :
    (x.provides reexport span).span = span := by
  cases reexport <;> rfl

/-- A default export stands where its statement does. -/
theorem span_of_defaults {t : TopLevel} {d : DefaultExport} (h : d ∈ t.defaults) :
    d.span = t.span := by
  rcases t with ⟨node, span⟩
  cases node with
  | exporting e =>
    cases e with
    | byDefault value =>
      obtain rfl := List.mem_singleton.mp h
      exact value.provides_span span
    | clause specifiers source =>
      obtain ⟨x, -, rfl⟩ := List.mem_map.mp h
      exact x.provides_span _ span
    | _ => cases h
  | _ => cases h

theorem defaults_of_shares {t : TopLevel} (h : t.sharesDefault = true) : t.defaults = [] := by
  rcases t with ⟨node, span⟩
  cases node with
  | exporting e =>
    cases e with
    | all name => rfl
    | _ => cases h
  | _ => cases h

/-- The first default export is the meant one just if the first statement that is meant to provide
one does so. -/
theorem head_meant_iff {nodes : List TopLevel}
    (apart : nodes.Pairwise fun t t' => t.span.stop ≤ t'.span.start)
    (wide : ∀ t ∈ nodes, t.sharesDefault = true → t.span.start < t.span.stop) :
    (nodes.flatMap (·.defaults)).head? = (nodes.flatMap (·.meantDefaults)).head? ↔
      ∀ t, nodes.find? (·.meantDefaults ≠ []) = some t → t.sharesDefault = false := by
  induction nodes with
  | nil => simp
  | cons t rest ih =>
    obtain ⟨behind, apart⟩ := List.pairwise_cons.mp apart
    obtain ⟨here, wide⟩ := List.forall_mem_cons.mp wide
    cases shares : t.sharesDefault with
    | true =>
      -- What is found instead stands behind the statement.
      have missed := defaults_of_shares shares
      have other : (rest.flatMap (·.defaults)).head? ≠ some ⟨.reexport, none, t.span⟩ := by
        intro found
        obtain ⟨t', there, provided⟩ := List.mem_flatMap.mp (List.mem_of_head? found)
        have start : t.span.stop ≤ t'.span.start := behind t' there
        have same : t.span = t'.span := span_of_defaults provided
        have width := here shares
        rw [same] at start width
        omega
      simp [TopLevel.meantDefaults, shares, missed, other]
    | false =>
      have meant : t.meantDefaults = t.defaults := by simp [TopLevel.meantDefaults, shares]
      cases provided : t.defaults with
      | nil => simp [meant, provided, ih apart wide]
      | cons d more => simp [meant, provided, shares]

/-- The nodes of a text are those of its statements. -/
theorem items?_of_nodes {l : Language} {text : List Char} {nodes : List TopLevel}
    (h : nodes? l text = some nodes) : items? l text = some (nodes.map TopLevel.item) := by
  rw [items?_nodes, h]
  rfl

/-- An export takes a piece of the text. Two spans that are apart could be the same empty one. -/
theorem wide_of_shares {l : Language} {text : List Char} {nodes : List TopLevel} {t : TopLevel}
    (h : nodes? l text = some nodes) (there : t ∈ nodes) (shares : t.sharesDefault = true) :
    t.span.start < t.span.stop := by
  refine items?_filled (items?_of_nodes h) (List.mem_map_of_mem there) ?_
  intro bang
  rcases t with ⟨node, span⟩
  cases node with
  | hashBang => cases shares
  | exporting e => cases e <;> cases bang
  | _ => cases shares

/-- The walk misses nothing just if no declaration stands behind `declare`, and the first default
export is not that of everything of another module. -/
theorem meant_iff {l : Language} {text : List Char} {nodes : List TopLevel}
    (h : nodes? l text = some nodes) : walk nodes = meant nodes ↔
      (∀ t ∈ nodes, t.passedOver = []) ∧
        ∀ t, nodes.find? (·.meantDefaults ≠ []) = some t → t.sharesDefault = false := by
  have apart : nodes.Pairwise fun t t' => t.span.stop ≤ t'.span.start := by
    have behind := (items?_behind (items?_of_nodes h)).pairwise.2
    rw [List.map_map] at behind
    exact List.pairwise_map.mp behind
  have defaults := head_meant_iff apart fun t there => wide_of_shares h there
  have named : nodes.flatMap (·.named) = nodes.flatMap (·.meantNamed) ↔
      ∀ t ∈ nodes, t.passedOver = [] := by
    refine (flatMap_append_iff (·.named) (·.passedOver.map (·.name)) nodes).trans ?_
    simp only [List.map_eq_nil_iff]
  have declared : nodes.flatMap (·.declared) = nodes.flatMap (·.meantDeclared) ↔
      ∀ t ∈ nodes, t.passedOver = [] := flatMap_append_iff (·.declared) (·.passedOver) nodes
  rw [walk_gain, meant, Findings.mk.injEq, defaults, named, declared, and_self]
  exact and_comm

/-! ## The exports of a module -/

/-- The exports and declarations of a module are those of its top-level nodes, which lie behind one
another in its text: the first default export that they provide, and their named exports and
declarations in order. A walk that meets them one by one finds the same. Nothing of what the nodes
mean is missed, just if no declaration stands behind `declare`, and the first statement with a
default export is not one that exports everything of another module under its name. -/
theorem outline_exports {l : Language} {text : String} {o : Outline}
    (h : outline? l text = some o) :
    ∃ nodes, nodes? l text.toList = some nodes ∧
      Behind (.start text.toList) (nodes.map (·.span)) ∧
      o.findings = walk nodes ∧
      o.defaultExport = (nodes.flatMap (·.defaults)).head? ∧
      o.namedExports = nodes.flatMap (·.named) ∧
      o.declarations = nodes.flatMap (·.declared) ∧
      (o.findings = meant nodes ↔ (∀ t ∈ nodes, t.passedOver = []) ∧
        ∀ t, nodes.find? (·.meantDefaults ≠ []) = some t → t.sharesDefault = false) := by
  have found := outline?_walk l text
  rw [h, Option.map_some] at found
  obtain ⟨nodes, read, same⟩ := Option.map_eq_some_iff.mp found.symm
  have parts := same.symm.trans (walk_gain nodes)
  have behind := items?_behind (items?_of_nodes read)
  rw [List.map_map] at behind
  refine ⟨nodes, read, behind, same.symm, congrArg (·.defaultExport) parts,
    congrArg (·.namedExports) parts, congrArg (·.declarations) parts, ?_⟩
  rw [← same]
  exact meant_iff read

/-- A module with two default exports and several named ones. -/
def menuText : String :=
  "export const price = 1, \x7b tax \x7d = rates;\n" ++
  "export \x7b Cart as default, price as total \x7d;\n" ++
  "function Cart() \x7b\x7d\n" ++
  "export * as icons from \"./icons\";\n" ++
  "export default Cart;\n"

def menuNodes : List TopLevel := [
  ⟨.exporting (.declaration
    ⟨.blockVariable, .declarators [.identifier "price", .pattern], ⟨7, 40⟩⟩), ⟨0, 40⟩⟩,
  ⟨.exporting (.clause [⟨"Cart", some "default"⟩, ⟨"price", some "total"⟩] none), ⟨41, 84⟩⟩,
  ⟨.declaration ⟨.function, .single (some "Cart"), ⟨85, 103⟩⟩, ⟨85, 103⟩⟩,
  ⟨.exporting (.all (some "icons")), ⟨104, 137⟩⟩,
  ⟨.exporting (.byDefault (.identifier "Cart")), ⟨138, 158⟩⟩]

def menuOutline : Outline where
  defaultExport := some ⟨.specifier, some "Cart", ⟨41, 84⟩⟩
  namedExports := ["price", "total", "icons"]
  declarations := [⟨"price", .blockVariable, ⟨7, 40⟩, true⟩, ⟨"Cart", .function, ⟨85, 103⟩, false⟩]

theorem menuText_exports : outline? .typescript menuText = some menuOutline ∧
    nodes? .typescript menuText.toList = some menuNodes ∧
    Behind (.start menuText.toList) (menuNodes.map (·.span)) ∧
    menuOutline.findings = walk menuNodes ∧
    menuOutline.defaultExport = (menuNodes.flatMap (·.defaults)).head? ∧
    menuOutline.namedExports = menuNodes.flatMap (·.named) ∧
    menuOutline.declarations = menuNodes.flatMap (·.declared) ∧
    menuOutline.findings = meant menuNodes := by
  have known : nodes? .typescript menuText.toList = some menuNodes := by decide +kernel
  have read : outline? .typescript menuText = some menuOutline := by
    rw [outline?, items?_of_nodes known, Option.map_some]
    decide +kernel
  obtain ⟨nodes, found, behind, walked, default, named, declared, meant⟩ := outline_exports read
  obtain rfl : nodes = menuNodes := Option.some.inj (found.symm.trans known)
  refine ⟨read, known, behind, walked, default, named, declared, meant.mpr ⟨by decide, ?_⟩⟩
  intro t first
  cases first
  rfl

/-- The name of a constant behind `declare` is not listed. -/
theorem version_unlisted :
    ∃ o nodes, outline? .typescript "export declare const version: string;\n" = some o ∧
      nodes? .typescript "export declare const version: string;\n".toList = some nodes ∧
      (meant nodes).namedExports = ["version"] ∧ o.namedExports = [] ∧ o.declarations = [] := by
  refine ⟨{}, [⟨.exporting (.ambient (some
    ⟨.blockVariable, .declarators [.identifier "version"], ⟨15, 37⟩⟩)), ⟨0, 37⟩⟩], ?_⟩
  decide +kernel

/-- Everything of another module under the default name is listed among the named exports. -/
example : (outline? .typescript "export * as default from \"./cart\";\n").map Outline.findings =
    some ⟨none, ["default"], []⟩ := by decide +kernel

end ModuleRepair.Script
