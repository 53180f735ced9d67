/-!
# Tokens of YAML

The words of a YAML document. Indentation is made explicit: a block opens with a token of its own
and closes with `blockEnd`.
-/
namespace ModuleRepair.Yaml

/-- Why a text is no YAML document. -/
inductive Fault where
  /-- The text has no tokens here. -/
  | scanner
  /-- A token stands where it may not. -/
  | parser
  /-- The document refers to what it does not hold, or more than one document is there. -/
  | composer
  /-- A node has no value. -/
  | constructor
  /-- The text holds a character that no document may hold. -/
  | reader
  deriving DecidableEq, Repr

inductive Token where
  | directive
  | documentStart
  | documentEnd
  | streamEnd
  | sequenceStart
  | mappingStart
  | blockEnd
  | flowSequenceStart
  | flowSequenceEnd
  | flowMappingStart
  | flowMappingEnd
  | entry
  | flowEntry
  | key
  | value
  | reference (name : String)
  | anchor (name : String)
  | tag (text : String)
  | scalar (text : String) (plain : Bool)
  deriving DecidableEq, Repr

/-- A line break. -/
def isBreak (c : Char) : Bool :=
  c == '\n' || c == '\r' || c.toNat == 0x85 || c.toNat == 0x2028 || c.toNat == 0x2029

/-- A character between words. -/
def isGap (c : Char) : Bool :=
  c == ' ' || c == '\t' || isBreak c

/-- Whether a text is at its end, or goes on with a character between words. -/
def atGap : List Char → Bool
  | [] => true
  | c :: _ => isGap c

/-- The brackets and the comma of flow collections. -/
def isFlowMark (c : Char) : Bool :=
  c == ',' || c == '[' || c == ']' || c == '\x7b' || c == '\x7d'

/-- Whether a text starts with a mark between documents. -/
def atDocumentMark : List Char → Bool
  | '-' :: '-' :: '-' :: rest => atGap rest
  | '.' :: '.' :: '.' :: rest => atGap rest
  | _ => false

/-- Whether a document may hold a character. -/
def isAllowed (c : Char) : Bool :=
  let n := c.toNat
  n == 0x09 || n == 0x0A || n == 0x0D || (0x20 ≤ n && n ≤ 0x7E) || n == 0x85 ||
  (0xA0 ≤ n && n ≤ 0xFFFD) || 0x10000 ≤ n

end ModuleRepair.Yaml
