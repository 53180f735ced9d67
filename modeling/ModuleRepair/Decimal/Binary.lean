/-!
# Floating-point numbers as exact fractions

A finite double is a whole number times a power of two. The decimal forms of this folder are
computed from that pair in whole-number arithmetic.
-/
namespace ModuleRepair.Decimal

/-- The parts of a double: what it is apart from its sign. -/
inductive Magnitude where
  | notANumber
  | infinite
  | finite (mantissa : Nat) (exponent : Int)
  deriving DecidableEq, Repr

/-- A double taken apart. -/
structure Parts where
  negative : Bool
  magnitude : Magnitude
  deriving DecidableEq, Repr

/-- Takes the 64 bits of a double apart. -/
def Parts.ofBits (bits : Nat) : Parts :=
  let fraction := bits % Nat.pow 2 52
  let power : Nat := bits / Nat.pow 2 52 % Nat.pow 2 11
  ⟨bits / Nat.pow 2 63 % 2 == 1,
    if power == 2047 then if fraction == 0 then .infinite else .notANumber
    else if power == 0 then .finite fraction (-1074)
    else .finite (Nat.pow 2 52 + fraction) ((power : Int) - 1075)⟩

/-- The parts of a double. -/
def Parts.ofFloat (x : Float) : Parts :=
  .ofBits x.toBits.toNat

/-- A fraction of whole numbers that stands for `n * 2 ^ p / 10 ^ e`: numerator and denominator. -/
def fraction (n : Nat) (p e : Int) : Nat × Nat :=
  (n * Nat.pow 2 p.toNat * Nat.pow 10 (-e).toNat, Nat.pow 2 (-p).toNat * Nat.pow 10 e.toNat)

/-- The quotient rounded to the nearest whole number; a half goes to the even neighbour. -/
def roundDiv (num den : Nat) : Nat :=
  let q := num / den
  let r := num % den
  if 2 * r < den then q else if den < 2 * r then q + 1 else q + q % 2

/-- The text of a whole number. -/
def natText (n : Nat) : List Char :=
  Nat.toDigits 10 n

/-- The text of a signed whole number. -/
def intText (n : Int) : List Char :=
  if n < 0 then '-' :: natText n.natAbs else natText n.natAbs

end ModuleRepair.Decimal
