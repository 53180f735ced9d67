import ModuleRepair.Text.Quoted
import ModuleRepair.Text.Word

/-!
# Options

An option is written with its full name, or with any beginning of a long name that fits no other. A
value may be attached to it with an equals sign.
-/
namespace ModuleRepair.CommandLine

open ModuleRepair.Text

inductive Opt where
  | help
  | buildLog
  | diagnosticsFile
  | config
  | allowList
  | targeted
  | full
  | skipPreprocessing
  | timeout
  | logLevel
  deriving DecidableEq, Repr

/-- How many values an option takes. -/
inductive Arity where
  | none
  | one
  | atMostOne
  | atLeastOne
  deriving DecidableEq, Repr

namespace Opt

/-- All options, in the order in which they are listed. -/
def all : List Opt :=
  [help, buildLog, diagnosticsFile, config, allowList, targeted, full, skipPreprocessing, timeout,
    logLevel]

def names : Opt → List String
  | help => ["-h", "--help"]
  | buildLog => ["--build-log"]
  | diagnosticsFile => ["--diagnostics-file"]
  | config => ["--config"]
  | allowList => ["--allow-list"]
  | targeted => ["--targeted"]
  | full => ["--full"]
  | skipPreprocessing => ["--skip-preprocessing"]
  | timeout => ["--timeout"]
  | logLevel => ["--log-level"]

/-- An option as it is named in messages. -/
def label (o : Opt) : String :=
  String.intercalate "/" o.names

/-- How many values an option takes. -/
def arity : Opt → Arity
  | help | targeted | full | skipPreprocessing => .none
  | diagnosticsFile | config | timeout | logLevel => .one
  | buildLog => .atMostOne
  | allowList => .atLeastOne

/-- All names with their options. -/
def table : List (String × Opt) :=
  all.flatMap fun o => o.names.map fun name => (name, o)

def ofName? (name : String) : Option Opt :=
  table.lookup name

/-- The names that begin with a text, with their options. -/
def matching (start : String) : List (String × Opt) :=
  table.filter fun entry => start.toList.isPrefixOf entry.1.toList

end Opt

/-- What is wrong with the use of an option. -/
inductive Misuse where
  | expectsOne
  | expectsSome
  | excludes (other : Opt)
  | takesNone (value : String)
  | notReal (value : String)
  | notOneOf (value : String) (choices : List String)
  deriving DecidableEq, Repr

inductive UsageError where
  | ambiguous (word : String) (names : List String)
  | misused (o : Opt) (misuse : Misuse)
  /-- Arguments that must be given. -/
  | missing (names : List String)
  | unknown (words : List String)
  deriving DecidableEq, Repr

/-- The misuse in words. -/
def Misuse.message : Misuse → String
  | expectsOne => "expected one argument"
  | expectsSome => "expected at least one argument"
  | excludes other => "not allowed with argument " ++ other.label
  | takesNone value => "ignored explicit argument " ++ quoted value
  | notReal value => "invalid float value: " ++ quoted value
  | notOneOf value choices => "invalid choice: " ++ quoted value ++ " (choose from "
      ++ String.intercalate ", " (choices.map quoted) ++ ")"

/-- The error in words. -/
def UsageError.message : UsageError → String
  | ambiguous word names =>
    "ambiguous option: " ++ word ++ " could match " ++ String.intercalate ", " names
  | misused o misuse => "argument " ++ o.label ++ ": " ++ misuse.message
  | missing names => "the following arguments are required: " ++ String.intercalate ", " names
  | unknown words => "unrecognized arguments: " ++ String.intercalate " " words

inductive Word where
  | value (text : String)
  /-- An option, and the value that is attached to it. -/
  | option (o : Opt) (attached : Option String)
  | unknown (text : String)
  /-- The two dashes behind which there are only values. -/
  | stop
  deriving DecidableEq, Repr

namespace Word

/-- The two dashes behind which there are only values. -/
def dashes : String := "--"

/-- Whether a text is a negative number, which is a value and not an option. -/
def isNegativeNumber (s : List Char) : Bool :=
  match s with
  | '-' :: body =>
    let body := if body.getLast? = some '\n' then body.dropLast else body
    match body.span isDecimal with
    | (digits, []) => !digits.isEmpty
    | (_, '.' :: places) => !places.isEmpty && places.all isDecimal
    | _ => false
  | _ => false

/-- A text cut at its first equals sign. -/
def cutValue (s : List Char) : List Char × Option String :=
  match s.span (· != '=') with
  | (front, _ :: attached) => (front, some (String.ofList attached))
  | (front, []) => (front, none)

/-- What is attached to a short option by what stands behind it: nothing, unless the option is
written again and then has a value. A short option takes no value, and what is no option at all
counts for nothing. -/
def behindShort (short : Char) : List Char → Option String
  | [] => none
  | '-' :: rest => some (String.ofList ('-' :: rest))
  | c :: rest =>
    if c = short then
      match rest with
      | '=' :: attached => some (String.ofList attached)
      | rest => behindShort short rest
    else none

/-- The options that a text may stand for, which is no full name: beginnings of long names, and a
short name with something behind it. -/
def candidates : List Char → List (String × Opt × Option String)
  | '-' :: '-' :: rest =>
    let (front, attached) := cutValue ('-' :: '-' :: rest)
    (Opt.matching (String.ofList front)).map fun (name, o) => (name, o, attached)
  | '-' :: c :: rest =>
    let name := String.ofList ['-', c]
    ((Opt.ofName? name).map fun o => (name, o, behindShort c rest)).toList
  | _ => []

/-- A word that is no full name: the option that it stands for, a value, or nothing known. -/
def ofCandidates (text : String) : Except UsageError Word :=
  match candidates text.toList with
  | [(_, o, attached)] => .ok (.option o attached)
  | [] =>
    if isNegativeNumber text.toList || text.toList.contains ' ' then .ok (.value text)
    else .ok (.unknown text)
  | several => .error (.ambiguous text (several.map (·.1)))

/-- Reads a word in front of the two dashes. -/
def ofText (text : String) : Except UsageError Word :=
  if !"-".toList.isPrefixOf text.toList then .ok (.value text)
  else
    match Opt.ofName? text with
    | some o => .ok (.option o none)
    | none =>
      if text = "-" then .ok (.value text)
      else
        let (front, attached) := cutValue text.toList
        match Opt.ofName? (String.ofList front) with
        | some o => .ok (.option o attached)
        | none => ofCandidates text

def ofTexts : List String → Except UsageError (List Word)
  | [] => .ok []
  | text :: rest => do
    if text = dashes then return .stop :: rest.map .value
    let word ← ofText text
    return word :: (← ofTexts rest)

def isValue : Word → Bool
  | value _ => true
  | _ => false

/-- Whether a word is a value or the two dashes. -/
def isPlain : Word → Bool
  | value _ | stop => true
  | _ => false

def plainText : Word → String
  | value text | unknown text => text
  | stop => dashes
  | option o _ => o.label

end Word

end ModuleRepair.CommandLine
