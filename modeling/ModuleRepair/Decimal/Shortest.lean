import ModuleRepair.Decimal.Binary

/-!
# Shortest decimal form

A double is written with the fewest digits that read back as the same double, and among those with
the digits nearest to it. From 10⁻⁴ up to 10¹⁶ the digits stand in place, with at least one behind
the point; outside they carry an exponent of at least two digits.
-/
namespace ModuleRepair.Decimal

/-- The quarter units of the last place between which every number reads back as the same double:
its lower and upper end, both included exactly when the mantissa is even. Below a power of two the
neighbours are closer. -/
def roundingInterval (mantissa : Nat) (exponent : Int) : Nat × Nat :=
  (if mantissa == Nat.pow 2 52 && -1074 < exponent then 4 * mantissa - 1 else 4 * mantissa - 2,
    4 * mantissa + 2)

/-- Whether `digits * 10 ^ grid` reads back as `mantissa * 2 ^ exponent`. -/
def readsBack (mantissa : Nat) (exponent grid : Int) (digits : Nat) : Bool :=
  let (low, high) := roundingInterval mantissa exponent
  let (num, den) := fraction 1 (exponent - 2) grid
  if mantissa % 2 == 0 then low * num ≤ digits * den && digits * den ≤ high * num
  else low * num < digits * den && digits * den < high * num

/-- The better of the two neighbours of a number on the grid of multiples of `10 ^ grid`, if one of
them reads back. -/
def bestOnGrid (mantissa : Nat) (exponent grid : Int) : Option Nat :=
  let (num, den) := fraction mantissa exponent grid
  let below := num / den
  let hit := readsBack mantissa exponent grid
  match hit below && below != 0, hit (below + 1) with
  | true, true => some (roundDiv num den)
  | true, false => some below
  | false, true => some (below + 1)
  | false, false => none

/-- The coarsest of the given number of grids, downwards, on which a number reads back. -/
def searchGrids (mantissa : Nat) (exponent : Int) : Nat → Int → Nat × Int
  | 0, grid => (0, grid)
  | fuel + 1, grid =>
    match bestOnGrid mantissa exponent grid with
    | some digits => (digits, grid)
    | none => searchGrids mantissa exponent fuel (grid - 1)

/-- The shortest decimal of a positive double: digits and power of ten. Twenty grids, from one
above the leading digit, hold it. -/
def shortestDigits (mantissa : Nat) (exponent : Int) : Nat × Int :=
  searchGrids mantissa exponent 24 ((exponent + Nat.log2 mantissa) * 30103 / 100000 + 2)

/-- The decimal `digits * 10 ^ grid` in place or with an exponent. -/
def decimalText (digits : Nat) (grid : Int) : List Char :=
  let ds := natText digits
  let point : Int := ds.length + grid
  if point ≤ -4 || 16 < point then
    let tail := ds.drop 1
    let power := point - 1
    let size := natText power.natAbs
    ds.take 1 ++ (if tail.isEmpty then [] else '.' :: tail) ++
      ['e', if power < 0 then '-' else '+'] ++ List.replicate (2 - size.length) '0' ++ size
  else if point ≤ 0 then '0' :: '.' :: List.replicate (-point).toNat '0' ++ ds
  else if ds.length ≤ point.toNat then
    ds ++ List.replicate (point.toNat - ds.length) '0' ++ ['.', '0']
  else ds.take point.toNat ++ '.' :: ds.drop point.toNat

/-- The shortest text of a double. -/
def shortest (x : Float) : String :=
  let parts := Parts.ofFloat x
  match parts.magnitude with
  | .notANumber => "nan"
  | magnitude =>
    let body := match magnitude with
      | .finite 0 _ => ['0', '.', '0']
      | .finite mantissa exponent =>
        let (digits, grid) := shortestDigits mantissa exponent
        decimalText digits grid
      | _ => ['i', 'n', 'f']
    String.ofList (if parts.negative then '-' :: body else body)

end ModuleRepair.Decimal
