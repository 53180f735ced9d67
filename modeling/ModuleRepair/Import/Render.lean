import ModuleRepair.Import.Basic

/-!
# Import declarations as text
-/
namespace ModuleRepair

namespace NamedImport

/-- The binding as it stands between the braces. -/
def render (b : NamedImport) : String :=
  let name := if b.isType then "type " ++ b.name else b.name
  match given b.renamed with
  | some a => if a = b.name then name else name ++ " as " ++ a
  | none => name

end NamedImport

namespace Import

/-- The bindings of a declaration as they stand before `from`, those that are there. -/
def clauses (d : Import) : List String :=
  (given d.defaultName).toList ++ ((given d.namespaceName).map ("* as " ++ ·)).toList ++
    if d.named.isEmpty then []
    else ["\x7b " ++ String.intercalate ", " (d.named.map (·.render)) ++ " \x7d"]

def quotedSpecifier (d : Import) : String :=
  let quote := if d.quote = "" then "\"" else d.quote
  quote ++ d.specifier ++ quote

/-- The declaration as text, on one line. -/
def render (d : Import) : String :=
  let head := match d.clauses with
    | [] => "import " ++ d.quotedSpecifier
    | clauses =>
      (if d.typeOnly then "import type " else "import ") ++ String.intercalate ", " clauses ++
        " from " ++ d.quotedSpecifier
  let attributes := match given d.attributes with
    | some a => " " ++ a
    | none => ""
  head ++ attributes ++ if d.semicolon then ";" else ""

end Import

end ModuleRepair
