import ModuleRepair.Script.Language
import ModuleRepair.Decimal.Number

/-!
# Notices

What a repair reports while it goes on: things it has passed over, and things it could not do.
-/
namespace ModuleRepair

/-- How serious a notice is. -/
inductive Severity where
  | warning
  | error
  deriving DecidableEq, Repr

/-- The word for a severity. -/
def Severity.name : Severity → String
  | warning => "WARNING"
  | error => "ERROR"

/-- A report of something passed over or not done. -/
inductive Notice where
  /-- A file could not be read as text. -/
  | loadFailed (path : String)
  | saveFailed (path : String)
  | preprocessFailed (name : String)
  /-- A target does not exist. -/
  | targetMissing (path : String)
  | allowedModuleMissing (path : String)
  | normalizeFailed (name : String) (cause : Script.LanguageError)
  | exportsFailed (name : String) (cause : Script.LanguageError)
  | surfaceEmpty
  | diagnosticFailed (code : Int) (cause : Script.LanguageError)
  | mismatchFailed (name specifier : String) (cause : Script.LanguageError)
  | organizeFailed (name : String) (cause : Script.LanguageError)
  /-- The source of diagnostics failed, for the given reason. -/
  | collectFailed (reason : String)
  | diagnosticsUnreadable (path : String)
  | toolMissing (command : String)
  | configurationMissing (file directory : String)
  | toolTimedOut (command : String) (limit : Decimal.Number)
  /-- The time of a run was over; nothing more is written. -/
  | stopped (message : String)
  | startFailed (reason : Option String)
  | projectFailed (message : String)
  | aborted (message : String)

namespace Notice

/-- How serious the notice is. -/
def severity : Notice → Severity
  | saveFailed _ | preprocessFailed _ | diagnosticsUnreadable _ | stopped _ | startFailed _
  | projectFailed _ | aborted _ => .error
  | _ => .warning

/-- The notice in words. -/
def message : Notice → String
  | loadFailed path => "Failed to load " ++ path
  | saveFailed path => "Failed to save " ++ path
  | preprocessFailed name => "  - Error preprocessing " ++ name
  | targetMissing path => "Skipping missing file: " ++ path
  | allowedModuleMissing path => "Allow-listed module not in project: " ++ path
  | normalizeFailed name cause =>
    "Warning: Failed to normalize exports of " ++ name ++ ": " ++ cause.message
  | exportsFailed name cause =>
    "Warning: Failed to process file " ++ name ++ ": " ++ cause.message
  | surfaceEmpty => "Export map is empty; missing-import recovery will have nothing to offer"
  | diagnosticFailed code cause =>
    "Warning: Failed to process diagnostic TS" ++ toString code ++ ": " ++ cause.message
  | mismatchFailed name specifier cause =>
    "Warning: Failed to resolve '" ++ name ++ "' from '" ++ specifier ++ "': " ++ cause.message
  | organizeFailed name cause =>
    "Warning: Failed to organize imports in " ++ name ++ ": " ++ cause.message
  | collectFailed reason => "Warning: Failed to collect diagnostics: " ++ reason
  | diagnosticsUnreadable path => "Failed to read diagnostics file " ++ path
  | toolMissing command => command ++ " not found; skipping compiler diagnostics"
  | configurationMissing file directory =>
    "No " ++ file ++ " in " ++ directory ++ "; skipping compiler diagnostics"
  | toolTimedOut command limit => command ++ " timed out after " ++ limit.wholeText ++ "s"
  | stopped message => message ++ "; no further changes persisted"
  | startFailed none => "Failed to start"
  | startFailed (some reason) => "Failed to start: " ++ reason
  | projectFailed message => "Failed to load project: " ++ message
  | aborted message => "Auto-fix aborted: " ++ message

end Notice

end ModuleRepair
