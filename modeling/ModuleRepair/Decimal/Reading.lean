import ModuleRepair.Decimal.Number
import ModuleRepair.Text.Blank
import ModuleRepair.Text.Word

/-!
# Reading decimal numbers

The written forms of a number: an optional sign, digits with or without a point and an exponent,
single underscores between digits where the form allows them, and the words for infinity and for
no number. `ofDecimal` rounds correctly, and answers for exponents of any size.
-/
namespace ModuleRepair.Decimal

open ModuleRepair.Text

/-- The double nearest to `digits * 10 ^ exponent`. Exponents beyond the range of doubles are
answered without a power of ten. -/
def ofDecimal (digits : Nat) (exponent : Int) : Float :=
  let size : Int := (natText digits).length
  if digits == 0 then 0.0
  else if 400 < size + exponent then 1.0 / 0.0
  else if size + exponent < -400 then 0.0
  else Float.ofScientific digits (exponent < 0) exponent.natAbs

/-- The double nearest to a whole number. -/
def ofWhole (n : Int) : Float :=
  let x := ofDecimal n.natAbs 0
  if n < 0 then -x else x

/-- An optional sign: whether it is a minus, and what follows. -/
def sign : List Char → Bool × List Char
  | '-' :: rest => (true, rest)
  | '+' :: rest => (false, rest)
  | s => (false, s)

/-- The longest run of digits, in which single underscores may separate digits: the digits, and
what follows them. -/
def digitRun : List Char → List Char × List Char
  | [] => ([], [])
  | '_' :: c :: rest => if c.isDigit then
      let (ds, tail) := digitRun rest
      (c :: ds, tail)
    else ([], '_' :: c :: rest)
  | c :: rest =>
    if c.isDigit then
      let (ds, tail) := digitRun rest
      (c :: ds, tail)
    else ([], c :: rest)

/-- Digits that start with one. -/
def leadingDigits (s : List Char) : List Char × List Char :=
  match s with
  | '_' :: _ => ([], s)
  | _ => digitRun s

/-- An optional exponent: its value, and what follows; nothing when it has no digits. -/
def exponentPart : List Char → Option (Int × List Char)
  | c :: rest =>
    if c == 'e' || c == 'E' then
      let (negative, rest) := sign rest
      match leadingDigits rest with
      | ([], _) => none
      | (ds, tail) =>
        let n : Int := numeral ds
        some (if negative then -n else n, tail)
    else some (0, c :: rest)
  | [] => some (0, [])

/-- An unsigned decimal that takes the whole text. -/
def unsigned? (s : List Char) : Option Float :=
  let (whole, rest) := leadingDigits s
  let (places, rest) := match rest with
    | '.' :: rest => leadingDigits rest
    | rest => ([], rest)
  if whole.isEmpty && places.isEmpty then none
  else match exponentPart rest with
    | some (e, []) => some (ofDecimal (numeral (whole ++ places)) (e - places.length))
    | _ => none

/-- The words for infinity and for no number, in any case. -/
def special? (s : List Char) : Option Float :=
  let w := String.ofList (s.map Char.toLower)
  if w == "inf" || w == "infinity" then some (1.0 / 0.0)
  else if w == "nan" then some (0.0 / 0.0)
  else none

/-- A signed decimal that takes the whole text. -/
def signed? (s : List Char) : Option Float :=
  let (negative, body) := sign s
  ((special? body).or (unsigned? body)).map fun x => if negative then -x else x

/-- Digits of every script written in ASCII. -/
def asciiDigits (s : List Char) : List Char :=
  s.map fun c => match digitValue? c with
    | some d => Char.ofNat (48 + d)
    | none => c

/-- A double in free text: white space around it is passed over. -/
def float? (s : String) : Option Float :=
  signed? (asciiDigits (trim s.toList))

/-- A whole number in free text. -/
def int? (s : List Char) : Option Int :=
  let (negative, body) := sign s
  match leadingDigits body with
  | ([], _) => none
  | (ds, []) => some (if negative then -numeral ds else numeral ds)
  | _ => none

end ModuleRepair.Decimal
