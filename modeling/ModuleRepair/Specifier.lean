import ModuleRepair.Path
import ModuleRepair.Text.Blank

/-!
# Module specifiers

An alias root stands for a directory: specifiers that start with its mark are taken from there.
Every module below the directory has one specifier of that form. Other spellings of a specifier are
compared by their tails, segment by segment.
-/
namespace ModuleRepair

open ModuleRepair.Text

/-- A directory and the mark at the front of a specifier that stands for it. -/
structure AliasRoot where
  mark : String
  directory : String
  deriving DecidableEq, Repr

/-- The mark where none is chosen. -/
def standardMark : String := "@/"

namespace Specifier

def extensions : List String := ["ts", "tsx", "mts", "cts", "js", "jsx", "mjs", "cjs"]

/-- The front of a path that ends with one of the extensions; the mark of a declaration file goes
with the extension. -/
def dropExtension (p : List Char) : List Char :=
  let tail := (p.reverse.takeWhile (· != '.')).reverse
  if tail.length < p.length && extensions.contains (String.ofList tail) then
    let front := p.take (p.length - tail.length - 1)
    if ".d".toList.isSuffixOf front then front.take (front.length - 2) else front
  else p

/-- The same, with a line feed behind the extension left where it is. -/
def withoutExtension (p : List Char) : List Char :=
  if p.getLast? = some '\n' then dropExtension p.dropLast ++ ['\n'] else dropExtension p

/-- A path without the name of the index module it ends with. -/
def withoutIndex (p : List Char) : List Char :=
  if "/index".toList.isSuffixOf p then p.take (p.length - 6) else p

/-- Passes over leading steps to the parent directory. -/
def dropParents : List Char → List Char
  | '.' :: '.' :: '/' :: rest => dropParents rest
  | s => s

/-- Passes over leading steps to the same or the parent directory. -/
def dropRelative : List Char → List Char
  | '.' :: '/' :: rest => dropRelative rest
  | '.' :: '.' :: '/' :: rest => dropRelative rest
  | s => s

end Specifier

namespace AliasRoot

open Specifier

/-- The specifier of a file below the directory. -/
def specifier? (r : AliasRoot) (path : String) : Option String :=
  let p := (Path.forwardSlashes (Path.relative path r.directory)).toList
  if p = "..".toList ∨ "../".toList.isPrefixOf p then none
  else some (r.mark ++ String.ofList (withoutIndex (withoutExtension p)))

/-- A specifier without the steps to parent directories right behind the mark. There must be such
steps, and something behind them. -/
def collapse? (r : AliasRoot) (specifier : String) : Option String :=
  match afterStart? r.mark.toList specifier.toList with
  | none => none
  | some below =>
    let rest := dropParents below
    if rest.length = below.length ∨ rest = [] then none
    else some (r.mark ++ String.ofList rest)

/-- The part of a specifier that names a module wherever it is imported from: without the mark,
leading steps and trailing slashes. -/
def tail (r : AliasRoot) (specifier : String) : List Char :=
  let s := specifier.toList
  dropEnd (· == '/') (dropRelative ((afterStart? r.mark.toList s).getD s))

/-- Whether the segments of one tail end those of the other. -/
def matchesPath (r : AliasRoot) (a b : String) : Bool :=
  let ta := r.tail a
  let tb := r.tail b
  !ta.isEmpty && !tb.isEmpty &&
    (ta == tb || ('/' :: tb).isSuffixOf ta || ('/' :: ta).isSuffixOf tb)

end AliasRoot

end ModuleRepair
