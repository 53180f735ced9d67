import ModuleRepair.Import.Basic

/-!
# Top-level statements

What a module imports, exports and declares is settled by its top-level statements alone. A
statement keeps what matters of them; the rest of its text is passed over.
-/
namespace ModuleRepair.Script

open ModuleRepair.Text

inductive DeclarationKind where
  | function
  | generatorFunction
  /-- A function without its body. -/
  | functionSignature
  | plainClass
  | abstractClass
  | blockVariable
  | functionVariable
  | interface
  | typeAlias
  | enumeration
  /-- A namespace with a dotted name. -/
  | namespaceBlock
  | moduleBlock
  deriving DecidableEq, Repr

namespace DeclarationKind

def name : DeclarationKind → String
  | function => "function_declaration"
  | generatorFunction => "generator_function_declaration"
  | functionSignature => "function_signature"
  | plainClass => "class_declaration"
  | abstractClass => "abstract_class_declaration"
  | blockVariable => "lexical_declaration"
  | functionVariable => "variable_declaration"
  | interface => "interface_declaration"
  | typeAlias => "type_alias_declaration"
  | enumeration => "enum_declaration"
  | namespaceBlock => "internal_module"
  | moduleBlock => "module"

/-- Whether a declaration of the kind counts when it is not exported. -/
def countsAlone : DeclarationKind → Bool
  | functionSignature | namespaceBlock | moduleBlock => false
  | _ => true

end DeclarationKind

/-- The names that one declaration declares, and where it stands. Patterns that take a value apart
declare no name that counts. -/
structure Declared where
  kind : DeclarationKind
  names : List String
  span : Span
  deriving DecidableEq, Repr

/-- What a default export offers. -/
inductive DefaultValue where
  | declaration (name : Option String)
  | identifier (name : String)
  | expression
  deriving DecidableEq, Repr

/-- One name in the braces of an export. -/
structure ExportSpecifier where
  name : String
  exportedName : String
  deriving DecidableEq, Repr

/-- A top-level statement. -/
inductive Statement where
  /-- The line that names an interpreter. -/
  | hashBang
  /-- A string on its own. -/
  | directive
  | importing (declaration : Import)
  | exportDefault (value : DefaultValue)
  | exportDeclaration (declared : Declared)
  /-- Names in braces, perhaps from another module. -/
  | exportNames (specifiers : List ExportSpecifier) (reexport : Bool)
  /-- Everything from another module, perhaps under one name. -/
  | exportAll (name : Option String)
  | declaration (declared : Declared)
  | other
  deriving DecidableEq, Repr

/-- A statement and where it stands. -/
structure Item where
  statement : Statement
  span : Span
  deriving DecidableEq, Repr

end ModuleRepair.Script
