import ModuleRepair.Settings.Check
import ModuleRepair.Yaml.Value
import ModuleRepair.Disk
import ModuleRepair.Text.Utf8

/-!
# Layers of configuration

Settings come from a file, then from the environment, then from the caller; each layer wins over
the ones before, setting by setting. Some settings live in sections of their own.
-/
namespace ModuleRepair

open ModuleRepair.Text ModuleRepair.Decimal

/-- Raw settings by their keys. -/
abbrev Entries := List (Key × Value)

/-- Why there are no settings. -/
inductive SettingsError where
  | missingFile (path : String)
  | unreadableFile (fault : DiskFault)
  | notText (error : Utf8Error)
  | notYaml (fault : Yaml.Fault)
  /-- A configuration file that holds something else. -/
  | notAMapping (path : String)
  | notANumber (text : String)
  /-- A section that must be written into is none. -/
  | notASection
  | invalid (problems : List Problem)
  deriving DecidableEq, Repr

namespace SettingsError

/-- The error in words, where it has some. -/
def message : SettingsError → Option String
  | missingFile path => some ("Config file not found: " ++ path)
  | notText error => some error.message
  | notAMapping path => some ("Config file " ++ path ++ " must contain a mapping")
  | notANumber text => some ("could not convert string to float: " ++ quoted text)
  | invalid problems =>
    let plural := if problems.length = 1 then "" else "s"
    some (toString problems.length ++ " validation error" ++ plural ++ " for FixerSettings")
  | unreadableFile _ | notYaml _ | notASection => none

end SettingsError

def fileEntries (d : Disk) (path : String) : Except SettingsError Entries := do
  let tidy := Path.tidy path
  if !d.has tidy then throw (.missingFile path)
  let bytes ← (d.read tidy).mapError .unreadableFile
  let text ← (decode bytes).mapError .notText
  match ← (Yaml.value (String.ofList (unifyLineEnds text.toList))).mapError .notYaml with
  | .mapping entries _ => return entries
  | v => if v.isNothing then return [] else throw (.notAMapping tidy)

/-- Puts a value into a section, which is added where there is none. A section that stands in other
places as well is changed there, too. -/
def putInto (entries : Entries) (name key : String) (v : Value) : Except SettingsError Entries :=
  match Value.get? entries name with
  | none => .ok (Value.put entries (.text name) (.mapping [(.text key, v)]))
  | some (.mapping inner none) =>
    .ok (Value.put entries (.text name) (.mapping (Value.put inner (.text key) v)))
  | some (.mapping _ (some identity)) =>
    .ok (Value.writeEntries identity (.text key) v entries)
  | some _ => .error .notASection

/-- The sections of settings. -/
def sectionNames : List String := ["limits", "tsc"]

/-- The entries with a section, which is empty where it is added. -/
def withSection (entries : Entries) (name : String) : Entries :=
  match Value.get? entries name with
  | none => Value.put entries (.text name) (.mapping [])
  | some _ => entries

def saysYes (s : String) : Bool :=
  ["1", "true", "yes", "on"].contains (String.ofList (lower (trim s.toList)))

/-- Where a variable of the environment goes, and what it says there. -/
structure Variable where
  name : String
  /-- The section of the setting, if it has one. -/
  into : Option String
  key : String
  read : String → Except SettingsError Value

def textVariable (name key : String) : Variable :=
  ⟨name, none, key, fun s => .ok (.text s)⟩

/-- The variables of the environment, in the order in which they are read. -/
def environmentVariables : List Variable := [
  textVariable "TSMEND_SOURCE_ROOT" "source_root",
  textVariable "TSMEND_ALIAS_PREFIX" "alias_prefix",
  ⟨"TSMEND_TIMEOUT_SECONDS", none, "timeout_seconds", fun s =>
    match float? s with
    | some x => .ok (.number (.real x))
    | none => .error (.notANumber s)⟩,
  textVariable "TSMEND_INDEX_MODE" "index_mode",
  ⟨"TSMEND_CONSTRAINED", some "limits", "constrained", fun s => .ok (.bool (saysYes s))⟩,
  ⟨"TSMEND_TSC_COMMAND", some "tsc", "command", fun s =>
    .ok (.list ((words s.toList).map fun w => .text (String.ofList w)))⟩,
  ⟨"TSMEND_TSC_ENABLED", some "tsc", "enabled", fun s => .ok (.bool (saysYes s))⟩]

/-- Puts a value into a section, or among the settings that have none. -/
def place (entries : Entries) (into : Option String) (key : String) (v : Value) :
    Except SettingsError Entries :=
  match into with
  | some name => putInto entries name key v
  | none => .ok (Value.put entries (.text key) v)

/-- Applies one variable of the environment. -/
def applyVariable (environment : List (String × String)) (entries : Entries) (v : Variable) :
    Except SettingsError Entries :=
  match environment.lookup v.name with
  | some s => do place entries v.into v.key (← v.read s)
  | none => return entries

/-- Applies the environment. In the end there are all sections, set or not. -/
def applyEnvironment (environment : List (String × String)) (entries : Entries) :
    Except SettingsError Entries := do
  let entries ← environmentVariables.foldlM (applyVariable environment) entries
  return sectionNames.foldl withSection entries

/-- The keys that live in the section of limits. -/
def limitKeys : List String := [
  "constrained", "max_scanned_modules", "max_export_entries", "max_diagnostics_per_file",
  "max_files_per_batch", "max_concurrent_preprocess"]

/-- Applies the choices of the caller; those that are null choose nothing. -/
def applyOverrides (overrides : List (String × Value)) (entries : Entries) :
    Except SettingsError Entries :=
  overrides.foldlM (fun entries (key, v) =>
    match v with
    | .null => return entries
    | v => place entries (if limitKeys.contains key then some "limits" else none) key v) entries

def layers (file : Entries) (environment : List (String × String))
    (overrides : List (String × Value)) : Except SettingsError Entries := do
  applyOverrides overrides (← applyEnvironment environment file)

/-- The settings of a configuration file, the environment and the caller. Without a file its layer
is empty. -/
def Settings.load (d : Disk) (path : Option String) (environment : List (String × String))
    (overrides : List (String × Value)) : Except SettingsError Settings := do
  let file ← match given path with
    | some path => fileEntries d path
    | none => pure []
  (Settings.ofEntries (← layers file environment overrides)).mapError .invalid

end ModuleRepair
