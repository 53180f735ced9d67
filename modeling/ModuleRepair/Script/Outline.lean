import ModuleRepair.Script.Statement

/-!
# The outline of a module

What the top-level statements of a module import, export and declare, in the order of the text. Of
several default exports the first one counts.
-/
namespace ModuleRepair.Script

open ModuleRepair.Text

/-- The forms of a default export. -/
inductive DefaultKind where
  | identifier
  | declaration
  | specifier
  | reexport
  | expression
  deriving DecidableEq, Repr

/-- The name of a form. -/
def DefaultKind.name : DefaultKind → String
  | identifier => "identifier"
  | declaration => "declaration"
  | specifier => "specifier"
  | reexport => "reexport"
  | expression => "expression"

structure DefaultExport where
  kind : DefaultKind
  /-- The name that the export has in its module, if it has one. -/
  localName : Option String
  span : Span
  deriving DecidableEq, Repr

/-- A name that a top-level statement declares. -/
structure Declaration where
  name : String
  kind : DeclarationKind
  span : Span
  exported : Bool
  deriving DecidableEq, Repr

/-- What a module imports, exports and declares. -/
structure Outline where
  imports : List Import := []
  defaultExport : Option DefaultExport := none
  namedExports : List String := []
  declarations : List Declaration := []
  /-- The end of the hash-bang line and the directives in front of all other statements. -/
  prologueEnd : Nat := 0
  deriving DecidableEq, Repr

namespace Item

/-- The import declaration of a statement. -/
def import? (item : Item) : Option Import :=
  match item.statement with
  | .importing d => some { d with span := item.span }
  | _ => none

/-- The default export that a statement provides. -/
def defaultExport? (item : Item) : Option DefaultExport :=
  match item.statement with
  | .exportDefault (.declaration (some name)) => some ⟨.declaration, some name, item.span⟩
  | .exportDefault (.identifier name) => some ⟨.identifier, some name, item.span⟩
  | .exportDefault _ => some ⟨.expression, none, item.span⟩
  | .exportNames specifiers reexport =>
    (specifiers.find? (·.exportedName = "default")).map fun s =>
      if reexport then ⟨.reexport, if s.name = "default" then none else some s.name, item.span⟩
      else ⟨.specifier, some s.name, item.span⟩
  | _ => none

/-- The names that a statement exports, the default one apart. -/
def namedExports (item : Item) : List String :=
  match item.statement with
  | .exportDeclaration d => d.names
  | .exportNames specifiers _ =>
    (specifiers.map (·.exportedName)).filter (· ≠ "default")
  | .exportAll name => name.toList
  | _ => []

/-- The names that a statement declares. -/
def declarations (item : Item) : List Declaration :=
  match item.statement with
  | .exportDeclaration d => d.names.map fun name => ⟨name, d.kind, d.span, true⟩
  | .declaration d => d.names.map fun name => ⟨name, d.kind, d.span, false⟩
  | _ => []

/-- Whether a statement may stand in front of all others. -/
def inPrologue (item : Item) : Bool :=
  match item.statement with
  | .hashBang | .directive => true
  | _ => false

end Item

namespace Outline

def ofItems (items : List Item) : Outline where
  imports := items.filterMap Item.import?
  defaultExport := items.findSome? Item.defaultExport?
  namedExports := items.flatMap Item.namedExports
  declarations := items.flatMap Item.declarations
  prologueEnd := ((items.takeWhile Item.inPrologue).getLast?.map (·.span.stop)).getD 0

def declaration? (o : Outline) (name : String) : Option Declaration :=
  o.declarations.find? (·.name = name)

/-- The local names that the imports bind. -/
def importedNames (o : Outline) : List String :=
  o.imports.flatMap (·.localNames)

end Outline

end ModuleRepair.Script
