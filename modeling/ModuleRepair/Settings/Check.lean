import ModuleRepair.Settings.Basic
import ModuleRepair.Settings.Value
import ModuleRepair.Decimal.Reading

/-!
# Checking raw values

Raw values are read generously: a number may be written as text, a whole number with a point, a
truth value as a word. All problems are found at once, in the order of the settings, each with its
place.
-/
namespace ModuleRepair

open ModuleRepair.Text ModuleRepair.Decimal

/-- What is wrong with a value. -/
inductive ProblemKind where
  | notOneOf
  | notText
  | notASection
  | unreadableReal
  | notReal
  | unreadableBool
  | notBool
  | unreadableWhole
  | notWhole
  | fraction
  | notFinite
  | notAList
  | notAMapping
  | missing
  deriving DecidableEq, Repr

/-- A problem and where it is: the keys and positions that lead there. -/
structure Problem where
  place : List Key
  kind : ProblemKind
  deriving DecidableEq, Repr

/-- Reads values at a place and collects problems. -/
abbrev Check (α : Type) := ReaderT (List Key) (StateM (List Problem)) α

namespace Check

/-- Reports a problem here, and goes on with a default. -/
def fail {α : Type} (kind : ProblemKind) (otherwise : α) : Check α := do
  let place ← read
  modify (· ++ [⟨place, kind⟩])
  return otherwise

def below {α : Type} (key : Key) (check : Check α) : Check α :=
  withReader (· ++ [key]) check

def text : Value → Check String
  | .text s => return s
  | _ => fail .notText ""

def indexMode : Value → Check IndexMode
  | .text s =>
    match IndexMode.ofName? s with
    | some mode => return mode
    | none => fail .notOneOf .full
  | _ => fail .notOneOf .full

/-- A real number. -/
def real : Value → Check Float
  | .number n => return n.toFloat
  | .bool b => return if b then 1.0 else 0.0
  | .text s =>
    match signed? (trim s.toList) with
    | some x => return x
    | none => fail .unreadableReal 0.0
  | _ => fail .notReal 0.0

/-- The words for true and for false. -/
def boolWords : List (String × Bool) := [
  ("0", false), ("off", false), ("f", false), ("false", false), ("n", false), ("no", false),
  ("1", true), ("on", true), ("t", true), ("true", true), ("y", true), ("yes", true)]

/-- A truth value of a whole number. -/
def boolOf (n : Int) : Check Bool :=
  if n = 0 then return false else if n = 1 then return true else fail .unreadableBool false

/-- A truth value. -/
def bool : Value → Check Bool
  | .bool b => return b
  | .text s =>
    match boolWords.lookup (lowerString s) with
    | some b => return b
    | none => fail .unreadableBool false
  | .number (.whole n) => boolOf n
  | .number (.real x) => if x == x.floor then boolOf (Decimal.floor x) else fail .notBool false
  | _ => fail .notBool false

/-- A whole number in text: digits, with a sign or without, and nothing but zeros behind a point. -/
def wholeOf? (s : List Char) : Option Int :=
  let (front, places) := s.span (· != '.')
  if places.drop 1 |>.all (· == '0') then int? front else none

/-- A whole number. -/
def whole : Value → Check Int
  | .number (.whole n) => return n
  | .bool b => return if b then 1 else 0
  | .number (.real x) =>
    if x.isNaN || x.isInf then fail .notFinite 0
    else if x == x.floor then return Decimal.floor x
    else fail .fraction 0
  | .text s =>
    match wholeOf? (trim s.toList) with
    | some n => return n
    | none => fail .unreadableWhole 0
  | _ => fail .notWhole 0

/-- Items from a position on. -/
def items {α : Type} (check : Value → Check α) : Nat → List Value → Check (List α)
  | _, [] => return []
  | n, v :: rest => do
    let item ← below (.whole n) (check v)
    return item :: (← items check (n + 1) rest)

def list {α : Type} (check : Value → Check α) : Value → Check (List α)
  | .list vs => items check 0 vs
  | _ => fail .notAList []

/-- The value under a key of a section, or a default where there is none. -/
def field {α : Type} (entries : List (Key × Value)) (key : String) (otherwise : α)
    (check : Value → Check α) : Check α :=
  match Value.get? entries key with
  | some v => below (.text key) (check v)
  | none => return otherwise

/-- A section, by its entries. -/
def «section» {α : Type} (otherwise : α) (check : List (Key × Value) → Check α) : Value → Check α
  | .mapping entries _ => check entries
  | _ => fail .notASection otherwise

/-- A well-known import. -/
def special : Value → Check SpecialImport :=
  «section» ⟨"", false⟩ fun entries => do
    let specifier ← match Value.get? entries "specifier" with
      | some v => below (.text "specifier") (text v)
      | none => below (.text "specifier") (fail .missing "")
    return ⟨specifier, ← field entries "is_default" false bool⟩

/-- The well-known imports by their names. -/
def specials : List (Key × Value) → Check (List (String × SpecialImport))
  | [] => return []
  | (key, v) :: rest => do
    let name ← match key with
      | .text s => pure s
      | key => below key (below (.text "[key]") (fail .notText ""))
    let s ← below key (special v)
    return (name, s) :: (← specials rest)

/-- A mapping of well-known imports. -/
def specialMapping : Value → Check (List (String × SpecialImport))
  | .mapping entries _ => specials entries
  | _ => fail .notAMapping []

/-- The limits of a run. -/
def limits : Value → Check Limits :=
  «section» {} fun entries => do
    return {
      constrained := ← field entries "constrained" true bool
      scannedModules := ← field entries "max_scanned_modules" 20 whole
      exportEntries := ← field entries "max_export_entries" 100 whole
      diagnosticsPerFile := ← field entries "max_diagnostics_per_file" 10 whole
      filesPerBatch := ← field entries "max_files_per_batch" 5 whole
      concurrentPreprocess := ← field entries "max_concurrent_preprocess" 4 whole }

/-- How the compiler is run. -/
def compiler : Value → Check CompilerSettings :=
  let standard : CompilerSettings := {}
  «section» standard fun entries => do
    return {
      enabled := ← field entries "enabled" standard.enabled bool
      command := ← field entries "command" standard.command (list text)
      configuration := ← field entries "tsconfig" standard.configuration text }

def settings (entries : List (Key × Value)) : Check Settings := do
  let standard : Settings := {}
  return {
    sourceRoot := ← field entries "source_root" standard.sourceRoot text
    mark := ← field entries "alias_prefix" standard.mark text
    indexMode := ← field entries "index_mode" standard.indexMode indexMode
    timeoutSeconds := ← field entries "timeout_seconds" standard.timeoutSeconds real
    skipPreprocessing := ← field entries "skip_preprocessing" standard.skipPreprocessing bool
    clientDirective := ← field entries "client_directive" standard.clientDirective text
    clientModules := ← field entries "client_modules" standard.clientModules (list text)
    allowList := ← field entries "named_export_allow_list" standard.allowList (list text)
    special := ← field entries "special_imports" standard.special specialMapping
    limits := ← field entries "limits" standard.limits limits
    compiler := ← field entries "tsc" standard.compiler compiler }

end Check

/-- The settings that entries give, or all problems with them. -/
def Settings.ofEntries (entries : List (Key × Value)) : Except (List Problem) Settings :=
  match ((Check.settings entries).run []).run [] with
  | (s, []) => .ok s
  | (_, problems) => .error problems

end ModuleRepair
