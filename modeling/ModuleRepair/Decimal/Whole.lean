import ModuleRepair.Decimal.Binary

/-!
# Rounding to a whole number

The text of a number without decimal places: nearest whole number, a half to the even neighbour,
and the sign kept even when nothing else is left of the number.
-/
namespace ModuleRepair.Decimal

/-- The text of a double without decimal places. -/
def wholeText (x : Float) : String :=
  let parts := Parts.ofFloat x
  match parts.magnitude with
  | .notANumber => "nan"
  | magnitude =>
    let body := match magnitude with
      | .finite mantissa exponent =>
        let (num, den) := fraction mantissa exponent 0
        natText (roundDiv num den)
      | _ => ['i', 'n', 'f']
    String.ofList (if parts.negative then '-' :: body else body)

end ModuleRepair.Decimal
