import ModuleRepair.Diagnostic.Basic
import ModuleRepair.Text.Blank
import ModuleRepair.Text.Word

/-!
# The compiler's report

A report has one line for each diagnostic, in one of two forms, and indented lines that continue
its message. Colours are passed over; any other line ends a message.
-/
namespace ModuleRepair.Report

open ModuleRepair.Text

/-- Measures a colour code behind its escape character. -/
def colourLength? : List Char → Option Nat
  | '[' :: rest =>
    let n := (rest.takeWhile fun c => c.isDigit || c == ';').length
    if (rest.drop n).head? = some 'm' then some (n + 2) else none
  | _ => none

/-- A line without colour codes. The first argument counts the characters of a code that are still
to pass. -/
def dropColours : Nat → List Char → List Char
  | _, [] => []
  | skip + 1, _ :: rest => dropColours skip rest
  | 0, c :: rest =>
    if c = '\x1b' then
      match colourLength? rest with
      | some n => dropColours n rest
      | none => c :: dropColours 0 rest
    else c :: dropColours 0 rest

/-- A number at the front of a text, in digits of any script, and what follows it. -/
def number? (s : List Char) : Option (Nat × List Char) :=
  match s.span isDecimal with
  | ([], _) => none
  | (digits, rest) => some (numeral digits, rest)

def categories : List String := ["error", "warning", "message"]

/-- What follows the place of a diagnostic on its line. -/
structure Body where
  line : Nat
  column : Nat
  category : String
  code : Nat
  message : List Char
  deriving DecidableEq, Repr

/-- Reads the category, code and message. -/
def body? (line column : Nat) (s : List Char) : Option Body := do
  let category ← categories.find? fun c => (c.toList ++ " TS".toList).isPrefixOf s
  let rest ← afterStart? (category.toList ++ " TS".toList) s
  let (code, rest) ← number? rest
  let rest ← afterStart? ": ".toList rest
  return ⟨line, column, category, code, trim rest⟩

/-- Reads what follows the file in the form `(line,column): …`. -/
def plainBody? (s : List Char) : Option Body := do
  let rest ← afterStart? "(".toList s
  let (line, rest) ← number? rest
  let rest ← afterStart? ",".toList rest
  let (column, rest) ← number? rest
  let rest ← afterStart? "): ".toList rest
  body? line column rest

/-- Reads what follows the file in the form `:line:column - …`. -/
def prettyBody? (s : List Char) : Option Body := do
  let rest ← afterStart? ":".toList s
  let (line, rest) ← number? rest
  let rest ← afterStart? ":".toList rest
  let (column, rest) ← number? rest
  let rest ← afterStart? " - ".toList rest
  body? line column rest

/-- A line cut at the first place behind its first character where a form fits. -/
def cutAt? (form : List Char → Option Body) : List Char → Option (List Char × Body)
  | [] => none
  | c :: rest =>
    (findFirst? form rest).map fun (n, body) => (c :: rest.take n, body)

/-- The diagnostic of a line. Relative paths are taken from a directory. -/
def diagnostic? (directory : String) (line : List Char) : Option Diagnostic :=
  ((cutAt? plainBody? line).or (cutAt? prettyBody? line)).map fun (file, body) =>
    let path := Path.absolute (Path.join directory (String.ofList (trim file)))
    { code := body.code
      message := String.ofList body.message
      path := some path
      line := body.line
      column := body.column
      category := body.category }

/-- The text of a line that continues a message. -/
def continuation? (line : List Char) : Option String :=
  if "  ".toList.isPrefixOf line && !isBlankText line then some (String.ofList (trim line))
  else none

/-- What has been read of a report: the diagnostics, last first, and whether the last one is still
open for continuation. -/
structure Reading where
  diagnostics : List Diagnostic := []
  isOpen : Bool := false

def readLine (directory : String) (r : Reading) (line : List Char) : Reading :=
  match diagnostic? directory line with
  | some d => ⟨d :: r.diagnostics, true⟩
  | none =>
    match r.diagnostics, r.isOpen, continuation? line with
    | d :: rest, true, some text => ⟨{ d with message := d.message ++ "\n" ++ text } :: rest, true⟩
    | diagnostics, _, _ => ⟨diagnostics, false⟩

/-- The diagnostics of a report, in order. -/
def diagnostics (report directory : String) : List Diagnostic :=
  let lines := (reportLines report.toList).map (dropColours 0)
  (lines.foldl (readLine directory) {}).diagnostics.reverse

def byFile (report directory : String) : DiagnosticsByFile :=
  (diagnostics report directory).foldl
    (fun all d => DiagnosticsByFile.add all (d.path.getD "") [d]) []

end ModuleRepair.Report
