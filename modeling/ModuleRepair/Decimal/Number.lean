import ModuleRepair.Decimal.Whole

/-!
# Numbers as settings give them

A number is a whole number of any size or a double, and remembers which of the two it is.
-/
namespace ModuleRepair.Decimal

/-- A whole number or a double. -/
inductive Number where
  | whole (n : Int)
  | real (x : Float)

/-- The largest whole number that is not above a finite double. -/
def floor (x : Float) : Int :=
  match Parts.ofFloat x with
  | ⟨negative, .finite mantissa exponent⟩ =>
    let (num, den) := fraction mantissa exponent 0
    if negative then -((num + den - 1) / den : Nat) else (num / den : Nat)
  | _ => 0

namespace Number

/-- The number as a double. -/
def toFloat : Number → Float
  | whole n => Float.ofInt n
  | real x => x

/-- The number without decimal places. -/
def wholeText (x : Number) : String :=
  Decimal.wholeText x.toFloat

/-- The smaller of two numbers; the first one unless the second is less. -/
def min (a b : Number) : Number :=
  if b.toFloat < a.toFloat then b else a

end Number

end ModuleRepair.Decimal
