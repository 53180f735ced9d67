import ModuleRepair.Decimal.Number

/-!
# Raw configuration values

What a configuration file, the environment and the command line give, before it is checked. A
mapping keeps the order of its keys, and each key once. A document can hold one mapping in several
places; what is written into it shows in all of them (`Value.write`).
-/
namespace ModuleRepair

open ModuleRepair.Decimal

/-- A key of a mapping. -/
inductive Key where
  | text (s : String)
  | whole (n : Int)
  /-- A key of any other kind, as it is written in messages. -/
  | other (s : String)
  deriving DecidableEq, Repr

/-- A raw value. -/
inductive Value where
  | null
  | bool (b : Bool)
  | number (n : Number)
  | text (s : String)
  | list (items : List Value)
  /-- A mapping. One that may stand in several places of a document has a number of its own. -/
  | mapping (entries : List (Key × Value)) (identity : Option Nat := none)
  /-- A date or a time. -/
  | moment
  deriving Inhabited

namespace Value

def get? (entries : List (Key × Value)) (key : String) : Option Value :=
  entries.lookup (.text key)

/-- The entries with the value under a key changed, or added at the end. -/
def put (entries : List (Key × Value)) (key : Key) (value : Value) : List (Key × Value) :=
  if (entries.lookup key).isSome then
    entries.map fun entry => if entry.1 = key then (key, value) else entry
  else entries ++ [(key, value)]

mutual

/-- A value with an entry written into the mapping of the given identity, wherever it stands. -/
def write (identity : Nat) (key : Key) (value : Value) : Value → Value
  | list items => list (writeItems identity key value items)
  | mapping entries own =>
    if own = some identity then mapping (put entries key value) own
    else mapping (writeEntries identity key value entries) own
  | v => v

def writeItems (identity : Nat) (key : Key) (value : Value) : List Value → List Value
  | [] => []
  | v :: rest => write identity key value v :: writeItems identity key value rest

def writeEntries (identity : Nat) (key : Key) (value : Value) :
    List (Key × Value) → List (Key × Value)
  | [] => []
  | entry :: rest => writeEntry identity key value entry :: writeEntries identity key value rest

def writeEntry (identity : Nat) (key : Key) (value : Value) : Key × Value → Key × Value
  | (k, v) => (k, write identity key value v)

end

/-- Whether a value counts as nothing at all. -/
def isNothing : Value → Bool
  | null | bool false | text "" | list [] | mapping [] _ => true
  | number (.whole n) => n == 0
  | number (.real x) => x == 0.0
  | _ => false

end Value

end ModuleRepair
