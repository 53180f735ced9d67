import ModuleRepair.Yaml.Node
import ModuleRepair.Settings.Value
import ModuleRepair.Decimal.Reading
import ModuleRepair.Decimal.Shortest
import ModuleRepair.Text.Lines

/-!
# From nodes to values

What a plain scalar stands for depends on its form: a word for nothing or for a truth value, a
number in one of several bases, a date, or else text.
-/
namespace ModuleRepair.Yaml

open ModuleRepair.Decimal

/-- The words for nothing. -/
def nullWords : List String := ["", "~", "null", "Null", "NULL"]

def trueWords : List String := ["yes", "Yes", "YES", "true", "True", "TRUE", "on", "On", "ON"]

def falseWords : List String := ["no", "No", "NO", "false", "False", "FALSE", "off", "Off", "OFF"]

/-- A sign at the front of a number: whether it is a minus, and what follows. -/
def sign : List Char → Bool × List Char
  | '-' :: rest => (true, rest)
  | '+' :: rest => (false, rest)
  | s => (false, s)

def valueIn (base : Nat) (digits : List Char) : Nat :=
  (digits.filter (· != '_')).foldl (fun n c =>
    base * n + (if c.isDigit then c.toNat - 48 else c.toLower.toNat - 87)) 0

/-- The parts between colons in a number of minutes and seconds, without the last one's places:
every one but the first has one or two digits and is below sixty. -/
def sixties? (s : List Char) : Option Nat :=
  match Text.split ':' s with
  | first :: second :: more =>
    let isPart (p : List Char) : Bool :=
      p.all Char.isDigit && (p.length == 1 || (p.length == 2 && p.head?.any (· < '6')))
    if first.head?.any Char.isDigit && first.all (fun c => c.isDigit || c == '_') &&
        (second :: more).all isPart then
      some ((first :: second :: more).foldl (fun n p => 60 * n + valueIn 10 p) 0)
    else none
  | _ => none

/-- A digit, or an underscore between digits. -/
def isDigitMark (c : Char) : Bool :=
  c.isDigit || c == '_'

/-- An unsigned whole number: binary, octal, hexadecimal, decimal, or in minutes and seconds. -/
def natural? (s : List Char) : Option Nat :=
  match s with
  | [] => none
  | ['0'] => some 0
  | '0' :: 'b' :: ds =>
    if !ds.isEmpty && ds.all (fun c => c == '0' || c == '1' || c == '_') then some (valueIn 2 ds)
    else none
  | '0' :: 'x' :: ds =>
    let isHex (c : Char) : Bool :=
      isDigitMark c || ('a' ≤ c && c ≤ 'f') || ('A' ≤ c && c ≤ 'F')
    if !ds.isEmpty && ds.all isHex then some (valueIn 16 ds) else none
  | '0' :: ds =>
    if ds.all fun c => ('0' ≤ c && c ≤ '7') || c == '_' then some (valueIn 8 ds) else none
  | c :: ds =>
    if c.isDigit && ds.all isDigitMark then some (valueIn 10 s)
    else if c.isDigit then sixties? s
    else none

/-- A whole number. -/
def whole? (s : List Char) : Option Int :=
  let (negative, body) := sign s
  (natural? body).map fun n => if negative then -(n : Int) else n

/-- The digits before and behind a point, and what follows them. The point must be there. -/
def pointed? (s : List Char) : Option (List Char × List Char × List Char) :=
  match s.span isDigitMark with
  | (front, '.' :: rest) =>
    let (places, rest) := rest.span isDigitMark
    some (front, places, rest)
  | _ => none

/-- An exponent with its sign, or none: its value; nothing when it is no exponent. -/
def exponent? : List Char → Option Int
  | [] => some 0
  | e :: s :: ds =>
    if (e == 'e' || e == 'E') && (s == '+' || s == '-') && !ds.isEmpty && ds.all Char.isDigit then
      let n : Int := valueIn 10 ds
      some (if s == '-' then -n else n)
    else none
  | _ => none

/-- An unsigned number with a point. A number without digits in front of the point has one behind
it. -/
def magnitude? (signed : Bool) (s : List Char) : Option Float :=
  match pointed? s with
  | some (front, places, rest) =>
    let starts := match front, places with
      | c :: _, _ => c.isDigit
      | [], c :: _ => c.isDigit && !signed
      | [], [] => false
    let digits := (front ++ places).filter (· != '_')
    let shift : Int := (places.filter (· != '_')).length
    if starts then (exponent? rest).map fun e => ofDecimal (valueIn 10 digits) (e - shift)
    else none
  | none =>
    let (head, tail) := s.span (· != '.')
    match tail, sixties? head with
    | '.' :: places, some n =>
      if places.all isDigitMark then
        let places := places.filter (· != '_')
        some (ofDecimal (n * Nat.pow 10 places.length + valueIn 10 places) (-(places.length : Int)))
      else none
    | _, _ => none

/-- A number with a point, or one of the words for infinity and for no number. -/
def real? (s : List Char) : Option Float :=
  let (negative, body) := sign s
  let signed := body.length < s.length
  if [".inf", ".Inf", ".INF"].any (·.toList == body) then
    some (if negative then -(1.0 / 0.0) else 1.0 / 0.0)
  else if !signed && [".nan", ".NaN", ".NAN"].any (·.toList == body) then some (0.0 / 0.0)
  else (magnitude? signed body).map fun x => if negative then -x else x

/-- Digits, of which there are as many as the argument says. -/
def digits? (counts : List Nat) (s : List Char) : Option (List Char) :=
  let n := (s.takeWhile Char.isDigit).length
  if counts.contains n then some (s.drop n) else none

/-- The time of day behind a date, with its zone. -/
def isTime (s : List Char) : Bool :=
  let rest := match s with
    | 'T' :: rest | 't' :: rest => some rest
    | ' ' :: _ | '\t' :: _ => some (s.dropWhile fun c => c == ' ' || c == '\t')
    | _ => none
  let zone (s : List Char) : Bool :=
    let s := s.dropWhile fun c => c == ' ' || c == '\t'
    match s with
    | [] => true
    | ['Z'] => true
    | c :: rest =>
      (c == '+' || c == '-') && match digits? [1, 2] rest with
        | some [] => true
        | some (':' :: rest) => digits? [2] rest == some []
        | _ => false
  let result := do
    let rest ← digits? [1, 2] (← rest)
    let rest ← Text.afterStart? [':'] rest
    let rest ← digits? [2] rest
    let rest ← Text.afterStart? [':'] rest
    let rest ← digits? [2] rest
    return match rest with
      | '.' :: rest => zone (rest.dropWhile Char.isDigit)
      | rest => zone rest
  result.getD false

/-- Whether a text has the form of a date, perhaps with a time. -/
def isMoment (s : List Char) : Bool :=
  let result := do
    let rest ← digits? [4] s
    let rest ← Text.afterStart? ['-'] rest
    let month := (rest.takeWhile Char.isDigit).length
    let rest ← digits? [1, 2] rest
    let rest ← Text.afterStart? ['-'] rest
    let day := (rest.takeWhile Char.isDigit).length
    let rest ← digits? [1, 2] rest
    return (month == 2 && day == 2 && rest.isEmpty) || isTime rest
  result.getD false

/-- What a plain scalar stands for. -/
def plainValue (s : String) : Except Fault Value :=
  if nullWords.contains s then .ok .null
  else if trueWords.contains s then .ok (.bool true)
  else if falseWords.contains s then .ok (.bool false)
  else match real? s.toList, whole? s.toList with
    | some x, _ => .ok (.number (.real x))
    | none, some n => .ok (.number (.whole n))
    | none, none =>
      if isMoment s.toList then .ok .moment
      else if s == "=" || s == "<<" then .error .constructor
      else .ok (.text s)

/-- A value as a key. Collections are no keys. -/
def keyOf : Value → Except Fault Key
  | .text s => .ok (.text s)
  | .number (.whole n) => .ok (.whole n)
  | .number (.real x) => .ok (.other (shortest x))
  | .bool b => .ok (.other (if b then "True" else "False"))
  | .null => .ok (.other "None")
  | .moment => .ok (.other "")
  | .list _ | .mapping .. => .error .constructor

def taggedScalar (tag text : String) : Except Fault Value :=
  let plain (accepts : Value → Bool) : Except Fault Value :=
    match plainValue text with
    | .ok v => if accepts v then .ok v else .error .constructor
    | .error e => .error e
  if tag == "!" || tag == "!!str" then .ok (.text text)
  else if tag == "!!null" then .ok .null
  else if tag == "!!bool" then plain fun v => v matches .bool _
  else if tag == "!!int" then plain fun v => v matches .number (.whole _)
  else if tag == "!!float" then
    match plainValue text with
    | .ok (.number n) => .ok (.number (.real n.toFloat))
    | _ => .error .constructor
  else .error .constructor

/-- Whether a node is the key that merges other mappings. -/
def isMergeKey : Node → Bool
  | .scalar none "<<" true => true
  | _ => false

/-- Whether the tag of a collection is one that it may have. -/
def collectionTag (name : String) : Option String → Bool
  | none => true
  | some tag => tag == "!" || tag == name

/-- The pairs of a mapping with those of merged mappings in front. The first argument bounds the
depth of merging. -/
def mergedPairs : Nat → List (Node × Node) → Except Fault (List (Node × Node))
  | 0, _ => .error .constructor
  | n + 1, pairs => do
    let merged ← (pairs.filter fun p => isMergeKey p.1).mapM fun (_, value) =>
      match value with
      | .mapping _ entries _ => mergedPairs n entries
      | .sequence _ items => do
        let parts ← items.mapM fun item =>
          match item with
          | .mapping _ entries _ => mergedPairs n entries
          | _ => throw .constructor
        return parts.reverse.flatten
      | _ => throw .constructor
    return merged.flatten ++ pairs.filter fun p => !isMergeKey p.1

/-- The value of a node. The first argument bounds the depth. -/
def valueOf : Nat → Node → Except Fault Value
  | 0, _ => .error .constructor
  | _ + 1, .scalar none text true => plainValue text
  | _ + 1, .scalar none text false => .ok (.text text)
  | _ + 1, .scalar (some tag) text _ => taggedScalar tag text
  | n + 1, .sequence tag items => do
    if !collectionTag "!!seq" tag then throw .constructor
    return .list (← items.mapM (valueOf n))
  | n + 1, .mapping tag entries identity => do
    if !collectionTag "!!map" tag then throw .constructor
    let pairs ← mergedPairs (n + 1) entries
    let pairs ← pairs.mapM fun (key, value) => do
      return (← keyOf (← valueOf n key), ← valueOf n value)
    return .mapping (pairs.foldl (fun all (key, value) => Value.put all key value) []) identity

/-- The value of a text; an empty text stands for nothing. -/
def value (s : String) : Except Fault Value := do
  match ← Node.ofText s.toList with
  | none => return .null
  | some node => valueOf (s.length + 2) node

end ModuleRepair.Yaml
