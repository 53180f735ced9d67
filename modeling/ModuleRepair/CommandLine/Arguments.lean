import ModuleRepair.CommandLine.Option
import ModuleRepair.Decimal.Reading
import ModuleRepair.Project.Index

/-!
# Arguments

The words of a command line are read from left to right. The first run of values names the project
and the files; values that come later belong to options or to nothing. An option that is given twice
has its last value.
-/
namespace ModuleRepair.CommandLine

open ModuleRepair.Decimal

/-- The values of all options. -/
structure Options where
  /-- The path of a build log; a dash stands for the standard input. -/
  buildLog : Option String := none
  diagnosticsFile : Option String := none
  config : Option String := none
  allowList : Option (List String) := none
  mode : Option IndexMode := none
  skipPreprocessing : Bool := false
  timeout : Option Float := none

structure Arguments where
  project : String
  files : List String
  options : Options

/-- Why a command line is not carried out. -/
inductive Refusal where
  /-- It asks for help. -/
  | help
  | misused (error : UsageError)
  deriving DecidableEq, Repr

/-- What has been read of a command line. -/
structure Parsed where
  options : Options := {}
  /-- The project and the files, once they have been read. -/
  named : Option (String × List String) := none
  /-- Words that belong to nothing. -/
  extra : List String := []

/-- The build log that is read from the standard input. -/
def standardInput : String := "-"

/-- The choices for the level of messages. -/
def levels : List String := ["DEBUG", "INFO", "WARNING", "ERROR"]

/-- The refusal of an option. -/
def misused {α : Type} (o : Opt) (misuse : Misuse) : Except Refusal α :=
  .error (.misused (.misused o misuse))

namespace Options

/-- Chooses an index mode, unless another one was chosen. -/
def choose (s : Options) (o other : Opt) (mode : IndexMode) : Except Refusal Options :=
  if s.mode.all (· = mode) then .ok { s with mode := some mode } else misused o (.excludes other)

def add (s : Options) (o : Opt) (values : List String) : Except Refusal Options :=
  let value := values.headD ""
  match o with
  | .help => .error .help
  | .buildLog => .ok { s with buildLog := some (values.headD standardInput) }
  | .diagnosticsFile => .ok { s with diagnosticsFile := some value }
  | .config => .ok { s with config := some value }
  | .allowList => .ok { s with allowList := some values }
  | .targeted => s.choose .targeted .full .targeted
  | .full => s.choose .full .targeted .full
  | .skipPreprocessing => .ok { s with skipPreprocessing := true }
  | .timeout =>
    match float? value with
    | some x => .ok { s with timeout := some x }
    | none => misused o (.notReal value)
  | .logLevel => if levels.contains value then .ok s else misused o (.notOneOf value levels)

def addAttached (s : Options) (o : Opt) (value : String) : Except Refusal Options :=
  if o.arity = .none then misused o (.takesNone value) else s.add o [value]

end Options

namespace Parsed

/-- Reads a run of values, in which the two dashes may stand. The first run with a value names the
project and the files. -/
def addRun (p : Parsed) (run : List Word) : Parsed :=
  let named (project : String) (rest : List Word) : Parsed :=
    { p with named := some (project, (rest.map Word.plainText).erase Word.dashes) }
  match p.named, run with
  | none, .stop :: .value project :: rest => named project rest
  | none, .value project :: .stop :: rest => named project rest
  | none, .value project :: rest => named project rest
  | _, run => { p with extra := p.extra ++ run.map Word.plainText }

/-- How many of the following words are values of an option; nothing when they are too few. -/
def valueCount? : Arity → List Word → Option Nat
  | .none, _ => some 0
  | .one, .value _ :: _ => some 1
  | .one, _ => none
  | .atMostOne, .value _ :: _ => some 1
  | .atMostOne, _ => some 0
  | .atLeastOne, words =>
    match (words.takeWhile Word.isValue).length with
    | 0 => none
    | n => some n

/-- Reads words from left to right. -/
def addWords (p : Parsed) : List Word → Except Refusal Parsed
  | [] => .ok p
  | .unknown text :: rest => addWords { p with extra := p.extra ++ [text] } rest
  | .option o (some value) :: rest => do
    addWords { p with options := ← p.options.addAttached o value } rest
  | .option o none :: rest =>
    match valueCount? o.arity rest with
    | none => misused o (if o.arity = .one then .expectsOne else .expectsSome)
    | some n => do
      let options ← p.options.add o ((rest.take n).map Word.plainText)
      addWords { p with options } (rest.drop n)
  | word :: rest =>
    addWords (p.addRun (word :: rest.takeWhile Word.isPlain)) (rest.dropWhile Word.isPlain)
termination_by words => words.length
decreasing_by
  all_goals simp only [List.length_cons, List.length_drop]
  · omega
  · omega
  · omega
  · exact Nat.lt_succ_of_le (List.dropWhile_sublist _).length_le

end Parsed

/-- The arguments that were read, unless some are missing or belong to nothing. -/
def Arguments.ofParsed (p : Parsed) : Except Refusal Arguments :=
  match p.named, p.extra with
  | none, _ => .error (.misused (.missing ["project", "files"]))
  | some (project, files), [] => .ok { project, files, options := p.options }
  | some _, extra => .error (.misused (.unknown extra))

def Arguments.ofTexts (texts : List String) : Except Refusal Arguments := do
  let words ← (Word.ofTexts texts).mapError .misused
  Arguments.ofParsed (← Parsed.addWords {} words)

end ModuleRepair.CommandLine
