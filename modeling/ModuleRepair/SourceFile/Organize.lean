import ModuleRepair.SourceFile.Edit

/-!
# Organizing imports

Imports of one specifier are merged, and named bindings are put in order. No binding is lost.
-/
namespace ModuleRepair.SourceFile

open ModuleRepair.Text ModuleRepair.Script

/-- Whether an import may be merged with others of its specifier. -/
def isMergeable (d : Import) : Bool :=
  (given d.namespaceName).isNone && !d.isSideEffect && (given d.attributes).isNone

/-- What imports must have in common to be merged. -/
def mergeKey (d : Import) : String × Bool :=
  (d.specifier, d.typeOnly)

/-- The imports of each key, in the order of the keys' first occurrence. -/
def mergeGroups (imports : List Import) : List (List Import) :=
  (imports.map mergeKey).eraseDups.map fun key => imports.filter (mergeKey · = key)

/-- Whether the imports of one key can be one import: they are several, and bind at most one
default name. -/
def canMerge (group : List Import) : Bool :=
  2 ≤ group.length && (group.filterMap fun d => given d.defaultName).eraseDups.length ≤ 1

/-- The file with the first group of imports merged that can be; nothing when there is none. Later
imports go first, so that the spans of earlier ones stay right. -/
def mergeOnce? (f : SourceFile) (o : Outline) : Option SourceFile :=
  match (mergeGroups (o.imports.filter isMergeable)).find? canMerge with
  | some (first :: rest) =>
    let f := rest.foldr (fun d f => f.removeImport d) f
    some (f.replaceImport first [Import.merge first rest])
  | _ => none

/-- Merges as often as it is possible; the argument bounds the number of times. -/
def mergeAll : Nat → SourceFile → Except LanguageError SourceFile
  | 0, f => return f
  | n + 1, f => do
    match f.mergeOnce? (← f.outline) with
    | some f => mergeAll n f
    | none => return f

/-- Puts the named bindings of the imports from a position on in order. -/
def sortFrom : Nat → Nat → SourceFile → Except LanguageError SourceFile
  | 0, _, f => return f
  | n + 1, position, f => do
    match (← f.outline).imports[position]? with
    | none => return f
    | some d =>
      let named := sortNamed d.named
      let f := if named = d.named then f else f.replaceImport d [{ d with named }]
      sortFrom n (position + 1) f

def organize (f : SourceFile) : Except LanguageError SourceFile := do
  let merged ← mergeAll (← f.outline).imports.length f
  sortFrom (← merged.outline).imports.length 0 merged

/-- Whether organizing edits the file: imports can be merged, or the named bindings of one are not
in order once all mergers are done. -/
def organizes (f : SourceFile) : Except LanguageError Bool := do
  let o ← f.outline
  let merged ← mergeAll o.imports.length f
  return (f.mergeOnce? o).isSome ||
    (← merged.outline).imports.any fun d => sortNamed d.named ≠ d.named

end ModuleRepair.SourceFile
