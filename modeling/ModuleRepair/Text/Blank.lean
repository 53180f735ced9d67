/-!
# White space

Two classes: the white space of Unicode, by which text is trimmed and split into words, and the
six ASCII characters by which bytes are. Trimming removes white space from an end and nothing else.
-/
namespace ModuleRepair.Text

/-- White space of any script, the separators U+001C to U+001F included. -/
def isBlank (c : Char) : Bool :=
  let n := c.toNat
  (0x09 ≤ n && n ≤ 0x0D) || (0x1C ≤ n && n ≤ 0x20) || n == 0x85 || n == 0xA0 || n == 0x1680 ||
  (0x2000 ≤ n && n ≤ 0x200A) || n == 0x2028 || n == 0x2029 || n == 0x202F || n == 0x205F ||
  n == 0x3000

/-- White space of ASCII: space, tab, line feed, carriage return, vertical tab and form feed. -/
def isAsciiBlank (c : Char) : Bool :=
  c == ' ' || (0x09 ≤ c.toNat && c.toNat ≤ 0x0D)

/-- The same white space as a byte. -/
def isBlankByte (b : UInt8) : Bool :=
  b == 0x20 || (0x09 ≤ b && b ≤ 0x0D)

/-- Without the leading characters of a class. -/
def dropStart (p : Char → Bool) (s : List Char) : List Char :=
  s.dropWhile p

/-- Without the trailing characters of a class. -/
def dropEnd (p : Char → Bool) (s : List Char) : List Char :=
  (s.reverse.dropWhile p).reverse

/-- Without white space at both ends. -/
def trim (s : List Char) : List Char :=
  dropEnd isBlank (dropStart isBlank s)

/-- A string without white space at both ends. -/
def trimString (s : String) : String :=
  String.ofList (trim s.toList)

/-- White space and nothing else. -/
def isBlankText (s : List Char) : Bool :=
  s.all isBlank

/-- The maximal runs of other characters between white space. -/
def words (s : List Char) : List (List Char) :=
  (go s [] []).reverse
where
  /-- Collects the current word and the finished ones, both reversed. -/
  go : List Char → List Char → List (List Char) → List (List Char)
    | [], word, done => close word done
    | c :: rest, word, done =>
      if isBlank c then go rest [] (close word done) else go rest (c :: word) done
  /-- Adds a word that has letters. -/
  close (word : List Char) (done : List (List Char)) : List (List Char) :=
    if word.isEmpty then done else word.reverse :: done

end ModuleRepair.Text
