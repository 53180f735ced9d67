import ModuleRepair.Script.Gap

/-!
# Tokens

Each function measures one kind of token at the front of a text, in characters, and answers nothing
when there is none.
-/
namespace ModuleRepair.Script

/-- The number of hexadecimal digits of an escape in an identifier, and the characters it takes. -/
def identifierEscape? : List Char → Option Nat
  | '\\' :: 'u' :: '\x7b' :: rest =>
    let digits := rest.takeWhile fun c => c.isDigit || ('a' ≤ c && c ≤ 'f') || ('A' ≤ c && c ≤ 'F')
    if digits.isEmpty || (rest.drop digits.length).head? != some '\x7d' then none
    else some (digits.length + 4)
  | '\\' :: 'u' :: rest =>
    let digits := rest.take 4
    if digits.length == 4 && digits.all fun c =>
      c.isDigit || ('a' ≤ c && c ≤ 'f') || ('A' ≤ c && c ≤ 'F') then some 6 else none
  | _ => none

/-- The punctuation that no identifier holds. -/
def punctuation : List Char := ":;\x60\"\x27@#.,|^&<=>+-*/\\%?!~()[]\x7b\x7d".toList

/-- A character that continues an identifier: neither a blank nor a control character nor
punctuation. -/
def isIdentifierPart (c : Char) : Bool :=
  if c.toNat < 0x80 then c.isAlphanum || c == '_' || c == '$' || c.toNat == 0x7F
  else !isSpace c

/-- Measures the rest of an identifier. `skip` counts the characters of an escape still to pass. -/
def identifierScan : Nat → Nat → List Char → Nat
  | seen, _, [] => seen
  | seen, skip + 1, _ :: rest => identifierScan seen skip rest
  | seen, 0, c :: rest =>
    if isIdentifierPart c then identifierScan (seen + 1) 0 rest
    else match identifierEscape? (c :: rest) with
      | some n => identifierScan (seen + n) (n - 1) rest
      | none => seen

/-- An identifier or keyword. -/
def word? (s : List Char) : Option Nat :=
  match s with
  | [] => none
  | c :: _ => if c.isDigit then none else match identifierScan 0 0 s with
    | 0 => none
    | n => some n

/-- A given keyword, not as the beginning of a longer word. -/
def keyword? (k : List Char) (s : List Char) : Option Nat :=
  if k.isPrefixOf s then
    let rest := s.drop k.length
    if rest.head?.any isIdentifierPart || (identifierEscape? rest).isSome then none
    else some k.length
  else none

/-- A given piece of punctuation. -/
def symbol? (k : List Char) (s : List Char) : Option Nat :=
  if k.isPrefixOf s then some k.length else none

/-- Measures the rest of a string literal up to and with its closing quote. -/
def stringScan (quote : Char) : Nat → List Char → Option Nat
  | _, [] => none
  | seen, '\\' :: rest =>
    match rest with
    | '\r' :: '\n' :: rest => stringScan quote (seen + 3) rest
    | _ :: rest => stringScan quote (seen + 2) rest
    | [] => none
  | seen, c :: rest =>
    if c == quote then some (seen + 1)
    else if c == '\n' || c == '\r' then none
    else stringScan quote (seen + 1) rest

/-- A string literal in single or double quotes. -/
def string? : List Char → Option Nat
  | c :: rest => if c == '"' || c == '\x27' then stringScan c 1 rest else none
  | [] => none

/-- Measures the rest of a number; a sign may stand behind an exponent letter. -/
def numberScan : Nat → Bool → List Char → Nat
  | seen, _, [] => seen
  | seen, exponent, c :: rest =>
    if c.isAlphanum || c == '_' || c == '.' then numberScan (seen + 1) (c == 'e' || c == 'E') rest
    else if exponent && (c == '+' || c == '-') then numberScan (seen + 1) false rest
    else seen

/-- A number of any base. -/
def number? : List Char → Option Nat
  | [] => none
  | c :: rest =>
    if c.isDigit then some (numberScan 1 false rest)
    else if c == '.' && rest.head?.any Char.isDigit then some (numberScan 1 false rest)
    else none

/-- Measures the rest of a regular expression up to its closing slash. The flag says that a
character class is open, in which a slash closes nothing. -/
def regexScan : Bool → Nat → List Char → Option Nat
  | _, _, [] => none
  | inClass, seen, '\\' :: rest =>
    match rest with
    | c :: rest => if isNewline c then none else regexScan inClass (seen + 2) rest
    | [] => none
  | inClass, seen, c :: rest =>
    if isNewline c || c == '\r' then none
    else if c == '[' then regexScan true (seen + 1) rest
    else if c == ']' then regexScan false (seen + 1) rest
    else if c == '/' && !inClass then some (seen + 1)
    else regexScan inClass (seen + 1) rest

/-- A regular expression with its flags. -/
def regex? : List Char → Option Nat
  | '/' :: rest =>
    match rest with
    | '*' :: _ => none
    | '/' :: _ => none
    | _ => (regexScan false 1 rest).map fun n =>
      n + (rest.drop (n - 1) |>.takeWhile Char.isAlpha).length
  | _ => none

/-- Measures characters of a template up to its closing quote or the next placeholder. -/
def templateScan : Nat → List Char → Nat
  | seen, [] => seen
  | seen, '\\' :: rest =>
    match rest with
    | _ :: rest => templateScan (seen + 2) rest
    | [] => seen
  | seen, '$' :: rest =>
    match rest with
    | '\x7b' :: _ => seen
    | rest => templateScan (seen + 1) rest
  | seen, c :: rest => if c == '\x60' then seen else templateScan (seen + 1) rest

/-- The characters of a template up to its end or the next placeholder; at least one. -/
def templateText? (s : List Char) : Option Nat :=
  match templateScan 0 s with
  | 0 => none
  | n => some n

/-- Text between markup elements; at least one character. -/
def markupText? (s : List Char) : Option Nat :=
  match (s.takeWhile fun c => c != '\x7b' && c != '\x7d' && c != '<' && c != '>').length with
  | 0 => none
  | n => some n

/-- Measures the rest of a markup attribute's string, which has no escapes. -/
def markupString? : List Char → Option Nat
  | c :: rest =>
    if c == '"' || c == '\x27' then
      let body := rest.takeWhile (· != c)
      if body.length < rest.length then some (body.length + 2) else none
    else none
  | [] => none

/-- The name of a markup element or attribute: words with hyphens, joined by points or a colon. -/
def markupName? (s : List Char) : Option Nat :=
  match word? s with
  | none => none
  | some n =>
    some (n + ((s.drop n).takeWhile fun c =>
      isIdentifierPart c || c == '-' || c == '.' || c == ':').length)

/-- The line with which a script names its interpreter. -/
def hashBang? : List Char → Option Nat
  | '#' :: '!' :: rest => some (2 + (rest.takeWhile (· != '\n')).length)
  | _ => none

end ModuleRepair.Script
