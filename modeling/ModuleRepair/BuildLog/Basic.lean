import ModuleRepair.Diagnostic.Classify

/-!
# Build logs

A bundler reports names that a module does not export. A report may stand anywhere in its output.
-/
namespace ModuleRepair

open ModuleRepair.Text

/-- A name that is imported from a module which does not export it. -/
structure Mismatch where
  name : String
  specifier : String
  deriving DecidableEq, Repr

namespace BuildLog

/-- A quotation mark of either kind. -/
def isQuote (c : Char) : Bool :=
  c = '"' || c = '\x27'

/-- Without a quotation mark at the front. -/
def dropQuote : List Char → List Char
  | c :: rest => if isQuote c then rest else c :: rest
  | [] => []

/-- A report at the front of a text, and what follows it. -/
def report? (s : List Char) : Option (Mismatch × List Char) := do
  let (name, rest) ← Fix.identifier? (dropQuote s)
  let rest ← afterStart? " is not exported from ".toList (dropQuote rest)
  match rest with
  | [] => none
  | q :: rest =>
    if !isQuote q then none
    else match rest.span (!isQuote ·) with
      | ([], _) | (_, []) => none
      | (specifier, _ :: rest) => some (⟨String.ofList name, String.ofList specifier⟩, rest)

/-- All reports of a text, in order; each is looked for behind the end of the one before. The first
argument bounds the number of steps. -/
def reports : Nat → List Char → List Mismatch
  | 0, _ | _, [] => []
  | n + 1, c :: rest =>
    match report? (c :: rest) with
    | some (m, after) => m :: reports n after
    | none => reports n rest

/-- The mismatches that a log reports, each once, in the order of their first report. -/
def mismatches (log : String) : List Mismatch :=
  (reports log.length log.toList).eraseDups

end BuildLog

end ModuleRepair
