/-!
# Gaps between tokens, and where a statement ends

Between two tokens stand blanks and comments. A statement may end without a semicolon: at the end
of the text, before a closing brace, or at a line break behind which no token continues it
(`endsHere`). The languages with and without types differ in the tokens that continue a statement,
and in whether a comment on the same line belongs to the statement before it.
-/
namespace ModuleRepair.Script

/-- Blank characters between tokens, line breaks and the byte-order mark included. -/
def isSpace (c : Char) : Bool :=
  let n := c.toNat
  (0x09 ≤ n && n ≤ 0x0D) || n == 0x20 || n == 0xA0 || n == 0x1680 || (0x2000 ≤ n && n ≤ 0x200B) ||
  n == 0x2028 || n == 0x2029 || n == 0x202F || n == 0x205F || n == 0x2060 || n == 0x3000 ||
  n == 0xFEFF

/-- Line breaks within a script. -/
def isNewline (c : Char) : Bool :=
  c == '\n' || c.toNat == 0x2028 || c.toNat == 0x2029

/-- The characters at which a line comment stops. -/
def stopsComment (c : Char) : Bool :=
  c == '\r' || isNewline c

/-- Where a scan through blanks and comments stands. -/
inductive GapState where
  /-- Between comments. -/
  | blank
  /-- In a line comment. -/
  | line
  /-- In a block comment. -/
  | block
  deriving DecidableEq, Repr

/-- The number of characters up to the next token. `seen` counts the characters so far, `closed`
those before the comment that is open; a block comment that never closes is no comment. -/
def gapScan : GapState → Nat → Nat → List Char → Nat
  | .block, _, closed, [] => closed
  | _, seen, _, [] => seen
  | .blank, seen, closed, '/' :: rest =>
    match rest with
    | '/' :: rest => gapScan .line (seen + 2) closed rest
    | '*' :: rest => gapScan .block (seen + 2) seen rest
    | _ => seen
  | .blank, seen, closed, c :: rest =>
    if isSpace c then gapScan .blank (seen + 1) closed rest else seen
  | .line, seen, closed, c :: rest =>
    gapScan (if stopsComment c then .blank else .line) (seen + 1) closed rest
  | .block, seen, closed, '*' :: rest =>
    match rest with
    | '/' :: rest => gapScan .blank (seen + 2) closed rest
    | rest => gapScan .block (seen + 1) closed rest
  | .block, seen, closed, _ :: rest => gapScan .block (seen + 1) closed rest

/-- The number of characters up to the next token. -/
def gapLength (s : List Char) : Nat :=
  gapScan .blank 0 0 s

/-- The text behind blanks and comments; nothing when a slash follows that opens no comment. A block
comment that never closes takes the rest. -/
def skipGap : GapState → List Char → Option (List Char)
  | _, [] => some []
  | .blank, '/' :: rest =>
    match rest with
    | '/' :: rest => skipGap .line rest
    | '*' :: rest => skipGap .block rest
    | _ => none
  | .blank, c :: rest => if isSpace c then skipGap .blank rest else some (c :: rest)
  | .line, c :: rest => skipGap (if isNewline c then .blank else .line) rest
  | .block, '*' :: rest =>
    match rest with
    | '/' :: rest => skipGap .blank rest
    | rest => skipGap .block rest
  | .block, _ :: rest => skipGap .block rest

/-- What stands before the place where a statement may end. -/
structure Ending where
  /-- The language has types. -/
  typed : Bool
  /-- An operand has been read, so that an operator could follow. -/
  operand : Bool
  /-- A function signature has been read, so that a body could follow. -/
  signature : Bool := false
  deriving DecidableEq, Repr

def isLetter (c : Char) : Bool :=
  c.isAlpha || 0x7F < c.toNat

/-- Whether a word that starts with `i` and goes on like this is no operator. The words `in` and
`instanceof` are operators, whatever but a letter stands behind them. -/
def startsNoOperator : List Char → Bool
  | 'n' :: rest =>
    match rest with
    | [] => false
    | c :: _ =>
      if !isLetter c then false
      else if "stanceof".toList.isPrefixOf rest then (rest.drop 8).head?.any isLetter
      else true
  | _ => true

/-- The punctuation that continues a statement on the next line. -/
def continuation : List Char := "\x60,:;*%><=?^|&/".toList

/-- Whether a statement ends at a line break with the given token behind it. -/
def endsBefore (e : Ending) : List Char → Bool
  | [] => true
  | c :: rest =>
    if c == '+' then rest.head? == some '+'
    else if c == '-' then rest.head? == some '-'
    else if c == '!' then rest.head? != some '='
    else if c == 'i' then startsNoOperator rest
    else if c == '.' then !e.typed && rest.head?.any Char.isDigit
    else if c == '(' || c == '[' then e.typed && !e.operand
    else if c == '\x7b' then !e.signature
    else !continuation.contains c

/-- Whether a statement ends at a line break; the argument follows the break. -/
def endsAtBreak (e : Ending) (s : List Char) : Bool :=
  match skipGap .blank s with
  | some token => endsBefore e token
  | none => false

/-- Where a statement ends without a semicolon in a language with types. Comments on the same line
stand in the way. A closing brace in front of a colon closes a pattern, not a block. -/
def endsTyped (e : Ending) : List Char → Bool
  | [] => true
  | c :: rest =>
    if c == '\x7d' then if (rest.dropWhile isSpace).head? == some ':' then e.operand else true
    else if c == '\n' then endsAtBreak e rest
    else isSpace c && endsTyped e rest

/-- Where a scan stands that looks past comments for the end of a statement. -/
inductive LookState where
  /-- On the line of the statement. -/
  | sameLine
  /-- Behind a comment, on any line. -/
  | onward
  /-- In a line comment. -/
  | line
  /-- In a block comment. -/
  | block
  deriving DecidableEq, Repr

/-- Whether a statement ends in front of the token behind its comments: none that an operator
could continue does, unless a closing brace follows. -/
def endsBehindComment (e : Ending) : List Char → Bool
  | [] => !e.operand
  | c :: _ => (!e.operand && c != ',' && c != '=') || c == '\x7d'

/-- Where a statement ends without a semicolon in a language without types. A comment that reaches
the end of the line ends a statement that no operator can continue. The flag says that the block
comments so far held a line break. -/
def endsUntyped (e : Ending) : LookState → Bool → List Char → Bool
  | .sameLine, _, [] => true
  | _, _, [] => !e.operand
  | .sameLine, broken, '/' :: rest =>
    match rest with
    | '/' :: rest => endsUntyped e .line broken rest
    | '*' :: rest => endsUntyped e .block broken rest
    | _ => false
  | .onward, broken, '/' :: rest =>
    match rest with
    | '/' :: rest => endsUntyped e .line broken rest
    | '*' :: rest => endsUntyped e .block broken rest
    | _ => false
  | .sameLine, broken, c :: rest =>
    if c == '\x7d' then true
    else if isNewline c then endsAtBreak e rest
    else isSpace c && endsUntyped e .sameLine broken rest
  | .onward, broken, c :: rest =>
    if isSpace c then endsUntyped e .onward broken rest else endsBehindComment e (c :: rest)
  | .line, broken, c :: rest =>
    endsUntyped e (if isNewline c then .onward else .line) broken rest
  | .block, broken, '*' :: rest =>
    match rest with
    | '/' :: rest =>
      match rest with
      | [] => broken && !e.operand
      | c :: tail =>
        if c == '/' then endsUntyped e .onward broken (c :: tail)
        else if broken && !e.operand && c != ',' && c != '=' then true
        else endsUntyped e .sameLine false (c :: tail)
    | rest => endsUntyped e .block broken rest
  | .block, broken, c :: rest => endsUntyped e .block (broken || isNewline c) rest

/-- Whether a statement ends here, without a semicolon. -/
def endsHere (e : Ending) (s : List Char) : Bool :=
  if e.typed then endsTyped e s else endsUntyped e .sameLine false s

/-- Scans to the next token, and asks behind each comment whether the statement ends there. -/
def joinScan (e : Ending) : GapState → Nat → List Char → Option Nat
  | .blank, seen, [] => some seen
  | .line, seen, [] => if endsHere e [] then none else some seen
  | .block, _, [] => none
  | .blank, seen, '/' :: rest =>
    match rest with
    | '/' :: rest => joinScan e .line (seen + 2) rest
    | '*' :: rest => joinScan e .block (seen + 2) rest
    | _ => some seen
  | .blank, seen, c :: rest => if isSpace c then joinScan e .blank (seen + 1) rest else some seen
  | .line, seen, c :: rest =>
    if stopsComment c then
      if endsHere e (c :: rest) then none else joinScan e .blank (seen + 1) rest
    else joinScan e .line (seen + 1) rest
  | .block, seen, '*' :: rest =>
    match rest with
    | '/' :: rest => if endsHere e rest then none else joinScan e .blank (seen + 2) rest
    | rest => joinScan e .block (seen + 1) rest
  | .block, seen, _ :: rest => joinScan e .block (seen + 1) rest

/-- The number of characters up to the next token, unless the statement ends before it. -/
def joinLength (e : Ending) (s : List Char) : Option Nat :=
  if endsHere e s then none else joinScan e .blank 0 s

/-- How a statement ends, and the number of characters up to there. -/
inductive Close where
  /-- With a semicolon, which is counted. -/
  | semicolon (length : Nat)
  /-- Without one; the comments that belong to the statement are counted. -/
  | bare (length : Nat)
  deriving DecidableEq, Repr

/-- The number of characters up to the end of a statement. -/
def Close.length : Close → Nat
  | semicolon n => n
  | bare n => n

theorem Close.length_semicolon (n : Nat) : (Close.semicolon n).length = n :=
  rfl

theorem Close.length_bare (n : Nat) : (Close.bare n).length = n :=
  rfl

/-- Scans to the end of the statement, and asks behind each comment whether it is there. -/
def closeScan (e : Ending) : GapState → Nat → List Char → Option Close
  | .line, seen, [] => if endsHere e [] then some (.bare seen) else none
  | _, _, [] => none
  | .blank, seen, '/' :: rest =>
    match rest with
    | '/' :: rest => closeScan e .line (seen + 2) rest
    | '*' :: rest => closeScan e .block (seen + 2) rest
    | _ => none
  | .blank, seen, c :: rest =>
    if c == ';' then some (.semicolon (seen + 1))
    else if isSpace c then closeScan e .blank (seen + 1) rest else none
  | .line, seen, c :: rest =>
    if stopsComment c then
      if endsHere e (c :: rest) then some (.bare seen) else closeScan e .blank (seen + 1) rest
    else closeScan e .line (seen + 1) rest
  | .block, seen, '*' :: rest =>
    match rest with
    | '/' :: rest =>
      if endsHere e rest then some (.bare (seen + 2)) else closeScan e .blank (seen + 2) rest
    | rest => closeScan e .block (seen + 1) rest
  | .block, seen, _ :: rest => closeScan e .block (seen + 1) rest

/-- How a statement ends here; nothing when more of it follows. -/
def close? (e : Ending) (s : List Char) : Option Close :=
  if endsHere e s then some (.bare 0) else closeScan e .blank 0 s

/-- The number of characters up to and with the end of the statement. -/
def closeLength (e : Ending) (s : List Char) : Option Nat :=
  (close? e s).map (·.length)

/-- The number of characters of the comments that belong to a body which needs no semicolon. -/
def trailLength (e : Ending) (s : List Char) : Nat :=
  match close? e s with
  | some (.bare n) => n
  | _ => 0

end ModuleRepair.Script
