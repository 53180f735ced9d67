import ModuleRepair.Diagnostic.Basic
import ModuleRepair.Text.Blank
import ModuleRepair.Text.Word

/-!
# From diagnostics to fixes

The message of a diagnostic holds the names that its fix needs. A message of another form has no
fix.
-/
namespace ModuleRepair.Fix

open ModuleRepair.Text

/-- An identifier at the front of a text, and what follows it. -/
def identifier? : List Char → Option (List Char × List Char)
  | [] => none
  | c :: rest =>
    if startsIdentifier c then
      some (c :: rest.takeWhile continuesIdentifier, rest.dropWhile continuesIdentifier)
    else none

/-- Whether a text is one identifier. -/
def isIdentifier (s : List Char) : Bool :=
  match identifier? s with
  | some (_, []) => true
  | _ => false

/-- The text up to a mark, which must not be empty, and what follows the mark. -/
def upTo? (mark : Char) (s : List Char) : Option (List Char × List Char) :=
  match s.span (· != mark) with
  | ([], _) => none
  | (_, []) => none
  | (before, _ :: after) => some (before, after)

/-- A specifier between double quotes, closed by a single one. -/
def suggestedSpecifier? (s : List Char) : Option (List Char) := do
  let rest ← afterStart? " from \"".toList s
  let (specifier, rest) ← upTo? '"' rest
  let _ ← afterStart? "\x27".toList rest
  return specifier

/-- The words in front of a suggested import. -/
def suggestion : List Char := "Did you mean to use 'import ".toList

/-- The name in braces and the specifier of a suggested import at the front of a text. -/
def suggestedNamed? (s : List Char) : Option (List Char × List Char) := do
  let rest ← afterStart? suggestion s
  let rest ← afterStart? "\x7b".toList rest
  let (name, rest) ← upTo? '\x7d' rest
  return (trim name, ← suggestedSpecifier? rest)

/-- The default name and the specifier of a suggested import at the front of a text. -/
def suggestedDefault? (s : List Char) : Option (List Char × List Char) := do
  let rest ← afterStart? suggestion s
  let (name, rest) ← identifier? rest
  return (name, ← suggestedSpecifier? rest)

/-- The name of a report of a missing name at the front of a text. -/
def missingName? (s : List Char) : Option (List Char) := do
  let rest ← afterStart? "Cannot find name '".toList s
  let (name, rest) ← identifier? rest
  let _ ← afterStart? "\x27".toList rest
  return name

/-- The specifier of a report of a missing module at the front of a text. -/
def missingModule? (s : List Char) : Option (List Char) := do
  let rest ← afterStart? "Cannot find module '".toList s
  return (← upTo? '\x27' rest).1

/-- The first result of a search through a text. -/
def search {α : Type} (pattern : List Char → Option α) (s : String) : Option α :=
  (findFirst? pattern s.toList).map (·.2)

/-- The fix for a diagnostic of the given code and message. -/
def classify? (code : Int) (message : String) : Option Fix :=
  if code = 2613 then
    match search suggestedNamed? message with
    | some (name, specifier) =>
      if isIdentifier name then
        some (.importByName (String.ofList name) (String.ofList specifier))
      else none
    | none => none
  else if code = 2614 then
    (search suggestedDefault? message).map fun (name, specifier) =>
      .importDefault (String.ofList name) (String.ofList specifier)
  else if code = 2304 ∨ code = 2552 then
    (search missingName? message).map fun name => .addImport (String.ofList name)
  else if code = 2307 then
    (search missingModule? message).map fun specifier => .correctPath (String.ofList specifier)
  else none

end ModuleRepair.Fix
