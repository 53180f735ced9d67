import ModuleRepair.Yaml.Token

/-!
# From text to tokens

A scan goes through the text once. A word in front of a colon turns out to be a key only at the
colon, so a scan remembers the places where a key may have begun: one for each depth of flow
collections, on the current line only. Every step takes at least one character (`scanSteps`).
-/
namespace ModuleRepair.Yaml

/-- A place where a key may have begun. -/
structure PossibleKey where
  /-- The number of tokens in front of it. -/
  number : Nat
  /-- Whether nothing but a key may stand there. -/
  required : Bool
  index : Nat
  line : Nat
  column : Nat

/-- The state of a scan. -/
structure Scan where
  rest : List Char
  index : Nat := 0
  line : Nat := 0
  column : Nat := 0
  /-- The number of flow collections that are open. -/
  depth : Nat := 0
  indent : Int := -1
  /-- The indentation of the blocks around the current one. -/
  outer : List Int := []
  keyAllowed : Bool := true
  /-- The places where a key may have begun, by depth. -/
  keys : List (Nat × PossibleKey) := []
  /-- The tokens so far, last first. -/
  tokens : List Token := []
  count : Nat := 0

/-- A step of a scan. -/
abbrev Scanner := StateT Scan (Except Fault)

namespace Scanner

/-- Moves on by one character. -/
def next (s : Scan) : Scan :=
  match s.rest with
  | [] => s
  | c :: rest =>
    let s := { s with rest, index := s.index + 1 }
    if isBreak c && !(c == '\r' && rest.head? == some '\n') then
      { s with line := s.line + 1, column := 0 }
    else if c.toNat == 0xFEFF then s else { s with column := s.column + 1 }

/-- Moves on by a number of characters. -/
def forward : Nat → Scan → Scan
  | 0, s => s
  | n + 1, s => forward n (next s)

/-- Moves on by a number of characters. -/
def skip (n : Nat) : Scanner Unit :=
  modify (forward n)

/-- Takes the characters of a class. -/
def takeWhile (p : Char → Bool) : Scanner (List Char) := do
  let taken := (← get).rest.takeWhile p
  skip taken.length
  return taken

/-- Takes a line break, if there is one: a line feed for those of the ASCII kind. -/
def takeBreak : Scanner (List Char) := do
  match (← get).rest with
  | '\r' :: '\n' :: _ => skip 2; return ['\n']
  | c :: _ =>
    if !isBreak c then return []
    skip 1
    return [if c.toNat == 0x2028 || c.toNat == 0x2029 then c else '\n']
  | [] => return []

/-- Adds a token. -/
def push (t : Token) : Scanner Unit :=
  modify fun s => { s with tokens := t :: s.tokens, count := s.count + 1 }

/-- Puts tokens in front of those from a number on. -/
def insert (number : Nat) (added : List Token) : Scanner Unit :=
  modify fun s =>
    let later := s.count - number
    { s with
      tokens := s.tokens.take later ++ added.reverse ++ s.tokens.drop later
      count := s.count + added.length }

/-- Whether a place is too far back for a key. -/
def isStale (s : Scan) (k : PossibleKey) : Bool :=
  k.line != s.line || s.index - k.index > 1024

/-- Forgets the places that are too far back for a key. -/
def dropStaleKeys : Scanner Unit := do
  let s ← get
  if s.keys.any fun entry => isStale s entry.2 && entry.2.required then throw .scanner
  set { s with keys := s.keys.filter fun entry => !isStale s entry.2 }

/-- The tokens that stand firm: those in front of every place where a key may still begin. -/
def firmTokens (s : Scan) : List Token :=
  let unsettled := (s.keys.map (·.2)).filter fun k => k.required || !isStale s k
  s.tokens.reverse.take (unsettled.foldl (fun n k => min n k.number) s.count)

/-- Forgets the place of the current depth. -/
def removeKey : Scanner Unit := do
  let s ← get
  match s.keys.lookup s.depth with
  | some k => if k.required then throw .scanner
  | none => pure ()
  set { s with keys := s.keys.filter (·.1 != s.depth) }

/-- Remembers this place, if a key may begin here. -/
def saveKey : Scanner Unit := do
  let s ← get
  if s.keyAllowed then
    removeKey
    let required := s.depth == 0 && s.indent == s.column
    let k : PossibleKey := ⟨s.count, required, s.index, s.line, s.column⟩
    modify fun s => { s with keys := (s.depth, k) :: s.keys }

/-- Says whether a key may begin next. -/
def allowKey (allowed : Bool) : Scanner Unit :=
  modify fun s => { s with keyAllowed := allowed }

/-- Closes the blocks that are indented deeper than a column. -/
def unwind (column : Int) : Scanner Unit := do
  let s ← get
  if s.depth == 0 then
    let closed := ((s.indent :: s.outer).takeWhile (column < ·)).length
    modify fun s => { s with
      tokens := List.replicate closed .blockEnd ++ s.tokens
      count := s.count + closed
      indent := ((s.indent :: s.outer).drop closed).headD (-1)
      outer := (s.indent :: s.outer).drop (closed + 1) }

/-- Opens a block at a column, if it is deeper than the current one. -/
def deepen (column : Int) : Scanner Bool := do
  let s ← get
  if s.indent < column then
    set { s with indent := column, outer := s.indent :: s.outer }
    return true
  return false

/-- Passes over blanks and comments up to the next token. The argument bounds the lines. -/
def skipGap : Nat → Scanner Unit
  | 0 => pure ()
  | n + 1 => do
    let _ ← takeWhile (· == ' ')
    if (← get).rest.head? == some '#' then
      let _ ← takeWhile (!isBreak ·)
    if (← takeBreak).isEmpty then return
    if (← get).depth == 0 then allowKey true
    skipGap n

/-- Takes the breaks and blanks between the lines of a scalar, up to a mark between documents. The
argument bounds the lines. -/
def lineBreaks (blank : Char → Bool) (marks : Bool) : Nat → Scanner (List Char)
  | 0 => pure []
  | n + 1 => do
    if marks && atDocumentMark (← get).rest then throw .scanner
    let _ ← takeWhile blank
    let taken ← takeBreak
    if taken.isEmpty then return []
    return taken ++ (← lineBreaks blank marks n)

/-- One break stands for a space; of several the first is dropped. -/
def fold (first breaks : List Char) : List Char :=
  if first != ['\n'] then first ++ breaks else if breaks.isEmpty then [' '] else breaks

/-- The length of a piece of a plain scalar. -/
def plainLength (inFlow : Bool) : List Char → Nat
  | [] => 0
  | c :: rest =>
    if isGap c || (c == ':' && (atGap rest || (inFlow && rest.head?.any isFlowMark))) ||
        (inFlow && (isFlowMark c || c == '?')) then 0
    else 1 + plainLength inFlow rest

/-- The breaks between the lines of a plain scalar; nothing at a mark between documents. The
argument bounds the lines. -/
def plainBreaks : Nat → Scanner (Option (List Char))
  | 0 => return some []
  | n + 1 => do
    if atDocumentMark (← get).rest then return none
    let _ ← takeWhile (· == ' ')
    let taken ← takeBreak
    if taken.isEmpty then return some []
    return (← plainBreaks n).map (taken ++ ·)

/-- The blanks behind a piece of a plain scalar; nothing when the scalar ends there. -/
def plainSpaces (bound : Nat) : Scanner (List Char) := do
  let blanks ← takeWhile (· == ' ')
  let first ← takeBreak
  if first.isEmpty then return blanks
  allowKey true
  return ((← plainBreaks bound).map (fold first)).getD []

/-- The text of a plain scalar. The second argument bounds its pieces. -/
def plainPieces (bound : Nat) : Nat → List Char → Scanner (List Char)
  | 0, _ => pure []
  | n + 1, spaces => do
    let s ← get
    if s.rest.head? == some '#' then return []
    let length := plainLength (s.depth != 0) s.rest
    if length == 0 then return []
    allowKey false
    skip length
    let blanks ← plainSpaces bound
    let t ← get
    let piece := spaces ++ s.rest.take length
    if blanks.isEmpty || t.rest.head? == some '#' || (t.depth == 0 && t.column < s.indent + 1) then
      return piece
    return piece ++ (← plainPieces bound n blanks)

/-- The escapes of one character in a double-quoted scalar. -/
def escapes : List (Char × Char) := [
  ('0', '\x00'), ('a', '\x07'), ('b', '\x08'), ('t', '\t'), ('\t', '\t'), ('n', '\n'),
  ('v', '\x0b'), ('f', '\x0c'), ('r', '\r'), ('e', '\x1b'), (' ', ' '), ('"', '"'),
  ('\\', '\\'), ('/', '/'), ('N', '\u0085'), ('_', '\u00a0'), ('L', '\u2028'), ('P', '\u2029')]

/-- The number of hexadecimal digits behind an escape letter. -/
def hexLength? : Char → Option Nat
  | 'x' => some 2
  | 'u' => some 4
  | 'U' => some 8
  | _ => none

/-- The value of hexadecimal digits. -/
def hexValue? (ds : List Char) : Option Nat :=
  ds.foldlM (fun n c =>
    if c.isDigit then some (16 * n + (c.toNat - 48))
    else if 'a' ≤ c && c ≤ 'f' then some (16 * n + (c.toNat - 87))
    else if 'A' ≤ c && c ≤ 'F' then some (16 * n + (c.toNat - 55))
    else none) 0

/-- What an escape stands for, behind its backslash. -/
def takeEscape (bound : Nat) : Scanner (List Char) := do
  match (← get).rest with
  | [] => throw .scanner
  | c :: rest =>
    match escapes.lookup c, hexLength? c with
    | some d, _ => skip 1; return [d]
    | none, some n =>
      if rest.length < n then throw .scanner
      match hexValue? (rest.take n) with
      | some v => skip (n + 1); return [Char.ofNat v]
      | none => throw .scanner
    | none, none =>
      if !isBreak c then throw .scanner
      let _ ← takeBreak
      lineBreaks (fun c => c == ' ' || c == '\t') true bound

/-- The text of a quoted scalar behind its opening quote, with the closing one. The second argument
bounds its pieces. -/
def quotedPieces (double : Bool) (bound : Nat) : Nat → Scanner (List Char)
  | 0 => throw .scanner
  | n + 1 => do
    match (← get).rest with
    | [] => throw .scanner
    | c :: rest =>
      if double && c == '\\' then
        skip 1
        return (← takeEscape bound) ++ (← quotedPieces double bound n)
      else if !double && c == '\x27' && rest.head? == some '\x27' then
        skip 2
        return c :: (← quotedPieces double bound n)
      else if c == (if double then '"' else '\x27') then
        skip 1
        return []
      else if c == ' ' || c == '\t' then
        let blanks ← takeWhile fun c => c == ' ' || c == '\t'
        if (← get).rest.head?.any isBreak then quotedPieces double bound n
        else return blanks ++ (← quotedPieces double bound n)
      else if isBreak c then
        let first ← takeBreak
        let breaks ← lineBreaks (fun c => c == ' ' || c == '\t') true bound
        return fold first breaks ++ (← quotedPieces double bound n)
      else
        skip 1
        return c :: (← quotedPieces double bound n)

/-- What happens to the breaks at the end of a block scalar. -/
inductive Chomping where
  | clip
  | strip
  | keep
  deriving DecidableEq

/-- The header of a block scalar behind its mark: the chomping and the indentation, in any order. -/
def blockHeader : Scanner (Chomping × Option Nat) := do
  let chomping : Scanner (Option Chomping) := do
    match (← get).rest with
    | '+' :: _ => skip 1; return some .keep
    | '-' :: _ => skip 1; return some .strip
    | _ => return none
  let first ← chomping
  let indentation ← do
    match (← get).rest with
    | c :: _ =>
      if !c.isDigit then pure none
      else if c == '0' then throw .scanner
      else
        skip 1
        pure (some (c.toNat - 48))
    | [] => pure none
  let second ← if first.isNone then chomping else pure none
  let _ ← takeWhile (· == ' ')
  if (← get).rest.head? == some '#' then
    let _ ← takeWhile (!isBreak ·)
  if !(← get).rest.isEmpty && (← takeBreak).isEmpty then throw .scanner
  return ((first.or second).getD .clip, indentation)

/-- The blank lines in front of a block scalar, and the deepest indentation among them. -/
def blockIndentation : Nat → Scanner (List Char × Nat)
  | 0 => return ([], 0)
  | n + 1 => do
    let _ ← takeWhile (· == ' ')
    let column := (← get).column
    let taken ← takeBreak
    if taken.isEmpty then return ([], column)
    let (breaks, deepest) ← blockIndentation n
    return (taken ++ breaks, max column deepest)

/-- The blank lines within a block scalar of the given indentation. -/
def blockBreaks (indent : Nat) : Nat → Scanner (List Char)
  | 0 => pure []
  | n + 1 => do
    let s ← get
    let blanks := (s.rest.takeWhile (· == ' ')).length
    skip (min blanks (indent - s.column))
    let taken ← takeBreak
    if taken.isEmpty then return []
    return taken ++ (← blockBreaks indent n)

/-- The lines of a block scalar, with the break behind the last one and the blank lines that
follow. -/
def blockLines (folded : Bool) (indent bound : Nat) :
    Nat → List Char → Scanner (List Char × List Char × List Char)
  | 0, breaks => return ([], [], breaks)
  | n + 1, breaks => do
    let s ← get
    if s.column != indent || s.rest.isEmpty then return ([], [], breaks)
    let isText (rest : List Char) : Bool := !rest.head?.any fun c => c == ' ' || c == '\t'
    let line ← takeWhile (!isBreak ·)
    let lineBreak ← takeBreak
    let after ← blockBreaks indent bound
    let t ← get
    if t.column == indent && !t.rest.isEmpty then
      let joint :=
        if folded && lineBreak == ['\n'] && isText s.rest && isText t.rest then
          if after.isEmpty then [' '] else []
        else lineBreak
      let (text, last, tail) ← blockLines folded indent bound n after
      return (breaks ++ line ++ joint ++ text, last, tail)
    return (breaks ++ line, lineBreak, after)

/-- The text of a block scalar behind its mark. -/
def blockScalar (folded : Bool) (bound : Nat) : Scanner (List Char) := do
  let least := max 1 ((← get).indent + 1).toNat
  let (chomping, increment) ← blockHeader
  let (breaks, indent) ← match increment with
    | some n => do
      let indent := least + n - 1
      pure (← blockBreaks indent bound, indent)
    | none => do
      let (breaks, deepest) ← blockIndentation bound
      pure (breaks, max least deepest)
  let (text, last, tail) ← blockLines folded indent bound bound breaks
  return match chomping with
    | .strip => text
    | .clip => text ++ last
    | .keep => text ++ last ++ tail

/-- A character of the name of an anchor. -/
def isNamePart (c : Char) : Bool :=
  c.isAlphanum || c == '-' || c == '_'

/-- The name of an anchor. -/
def takeName : Scanner String := do
  let name ← takeWhile isNamePart
  let rest := (← get).rest
  let ends := "?:,]\x7d%@\x60".toList
  if name.isEmpty || !(atGap rest || rest.head?.any ends.contains) then
    throw .scanner
  return String.ofList name

/-- A character of a tag. -/
def isTagPart (c : Char) : Bool :=
  c.isAlphanum || "-;/?:@&=+$,_.!~*'()[]%<>".toList.contains c

/-- Starts a flow collection. -/
def openFlow (t : Token) : Scanner Unit := do
  saveKey
  modify fun s => { s with depth := s.depth + 1 }
  allowKey true
  skip 1
  push t

/-- Ends a flow collection. -/
def closeFlow (t : Token) : Scanner Unit := do
  removeKey
  modify fun s => { s with depth := s.depth - 1 }
  allowKey false
  skip 1
  push t

def blockEntry : Scanner Unit := do
  let s ← get
  if s.depth == 0 then
    if !s.keyAllowed then throw .scanner
    if ← deepen s.column then push .sequenceStart
  allowKey true
  removeKey
  skip 1
  push .entry

/-- A key with a mark of its own. -/
def explicitKey : Scanner Unit := do
  let s ← get
  if s.depth == 0 then
    if !s.keyAllowed then throw .scanner
    if ← deepen s.column then push .mappingStart
  allowKey (s.depth == 0)
  removeKey
  skip 1
  push .key

/-- The colon behind a key. -/
def keyValue : Scanner Unit := do
  let s ← get
  match s.keys.lookup s.depth with
  | some k =>
    set { s with keys := s.keys.filter (·.1 != s.depth) }
    let opens ← if s.depth == 0 then deepen k.column else pure false
    insert k.number (if opens then [.mappingStart, .key] else [.key])
    allowKey false
  | none =>
    if s.depth == 0 then
      if !s.keyAllowed then throw .scanner
      if ← deepen s.column then push .mappingStart
    allowKey (s.depth == 0)
    removeKey
  skip 1
  push .value

/-- A mark at the beginning of a line that ends a document. -/
def documentMark (length : Nat) (t : Token) : Scanner Unit := do
  unwind (-1)
  removeKey
  allowKey false
  skip length
  push t

/-- Whether a plain scalar can start with a text. -/
def startsPlain (inFlow : Bool) : List Char → Bool
  | [] => false
  | c :: rest =>
    !(isGap c || "-?:,[]\x7b\x7d#&*!|>\x27\"%@\x60".toList.contains c) ||
      (!atGap rest && (c == '-' || (!inFlow && (c == '?' || c == ':'))))

/-- Takes one token; answers whether the text is at its end. -/
def token (bound : Nat) : Scanner Bool := do
  if (← get).index == 0 && (← get).rest.head?.any (·.toNat == 0xFEFF) then skip 1
  skipGap bound
  dropStaleKeys
  unwind (← get).column
  let s ← get
  let inFlow := s.depth != 0
  let atStart := s.column == 0
  match s.rest with
  | [] =>
    unwind (-1)
    removeKey
    push .streamEnd
    return true
  | c :: rest =>
    if c == '%' && atStart then
      documentMark 1 .directive
      let _ ← takeWhile (!isBreak ·)
    else if atStart && atDocumentMark s.rest then
      documentMark 3 (if c == '-' then .documentStart else .documentEnd)
    else if c == '[' then openFlow .flowSequenceStart
    else if c == '\x7b' then openFlow .flowMappingStart
    else if c == ']' then closeFlow .flowSequenceEnd
    else if c == '\x7d' then closeFlow .flowMappingEnd
    else if c == ',' then
      allowKey true
      removeKey
      skip 1
      push .flowEntry
    else if c == '-' && atGap rest then blockEntry
    else if c == '?' && (inFlow || atGap rest) then explicitKey
    else if c == ':' && (inFlow || atGap rest) then keyValue
    else if c == '*' || c == '&' then
      saveKey
      allowKey false
      skip 1
      let name ← takeName
      push (if c == '*' then .reference name else .anchor name)
    else if c == '!' then
      saveKey
      allowKey false
      let text ← takeWhile isTagPart
      if !atGap (← get).rest then throw .scanner
      push (.tag (String.ofList text))
    else if (c == '|' || c == '>') && !inFlow then
      allowKey true
      removeKey
      skip 1
      let text ← blockScalar (c == '>') bound
      push (.scalar (String.ofList text) false)
    else if c == '\x27' || c == '"' then
      saveKey
      allowKey false
      skip 1
      let text ← quotedPieces (c == '"') bound bound
      push (.scalar (String.ofList text) false)
    else if startsPlain inFlow s.rest then
      saveKey
      allowKey false
      let text ← plainPieces bound bound []
      push (.scalar (String.ofList text) true)
    else throw .scanner
    return false

/-- Takes tokens up to the end of the text, or up to a fault, in front of which only firm tokens
count. The second argument bounds their number. -/
def scanSteps (bound : Nat) : Nat → Scan → List Token × Option Fault
  | 0, s => (s.tokens.reverse, some .scanner)
  | n + 1, s =>
    match (token bound).run s with
    | .ok (true, s) => (s.tokens.reverse, none)
    | .ok (false, s) => scanSteps bound n s
    | .error fault => (firmTokens s, some fault)

end Scanner

/-- The tokens of a text, up to the fault that ends them, if there is one. -/
def scan (s : List Char) : List Token × Option Fault :=
  if !s.all isAllowed then ([], some .reader)
  else Scanner.scanSteps (s.length + 2) (s.length + 2) { rest := s }

end ModuleRepair.Yaml
