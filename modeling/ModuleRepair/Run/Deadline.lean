import ModuleRepair.Decimal.Whole

/-!
# Deadlines

A run may have a limit of time. Whoever asks a deadline gives it the reading of a clock, which only
ever goes forward.
-/
namespace ModuleRepair

open ModuleRepair.Decimal

/-- A limit of time, and when it began. -/
structure Deadline where
  seconds : Option Float
  started : Float

namespace Deadline

/-- When the time is over; zero seconds are no limit. -/
def expires (d : Deadline) : Option Float :=
  match d.seconds with
  | some seconds => if seconds == 0.0 then none else some (d.started + seconds)
  | none => none

/-- The time that is left, never less than zero; nothing when there is no limit. -/
def remaining (d : Deadline) (now : Float) : Option Float :=
  d.expires.map fun expires => if 0.0 < expires - now then expires - now else 0.0

/-- The time since the beginning. -/
def elapsed (d : Deadline) (now : Float) : Float :=
  now - d.started

/-- Whether the time is over. -/
def expired (d : Deadline) (now : Float) : Bool :=
  match d.expires with
  | some expires => expires ≤ now
  | none => false

/-- The report that the time was over, and during what. -/
def message (d : Deadline) (phase : String) : String :=
  "Auto-fix timed out after " ++ wholeText (d.seconds.getD 0.0) ++ " seconds (during " ++ phase
    ++ ")"

end Deadline

end ModuleRepair
