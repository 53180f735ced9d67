import ModuleRepair.Text.Blank
import ModuleRepair.Text.Lines
import ModuleRepair.Text.Word

/-!
# Preprocessing a text

Generated modules arrive wrapped in prose and fences, and without the directive that modules for the
browser need. Both are mended in whole lines, before any module is read.
-/
namespace ModuleRepair.Preprocess

open ModuleRepair.Text

abbrev Line := List Char

/-- The lines of a text; a line feed stands between each two of them. -/
def linesOf (s : List Char) : List Line :=
  split '\n' s

def unlines (lines : List Line) : List Char :=
  join ['\n'] lines

/-- Whether a line opens or closes a fence. -/
def isFence (line : Line) : Bool :=
  "\x60\x60\x60".toList.isPrefixOf (trim line)

/-- The lines strictly between the first and the last fence; nothing with fewer than two fences. -/
def fenced? (lines : List Line) : Option (List Line) :=
  let inside := (lines.dropWhile (!isFence ·)).drop 1
  match inside.reverse.dropWhile (!isFence ·) with
  | [] => none
  | _ :: body => some body.reverse

/-- Takes prose and fences away. -/
def stripFences? (s : List Char) : Option (List Char) :=
  (fenced? (linesOf s)).map unlines

/-- Whether nothing but white space and at most one semicolon is left of a line. -/
def isDirectiveEnd (s : List Char) : Bool :=
  match s.dropWhile isBlank with
  | ';' :: rest => isBlankText rest
  | rest => rest.isEmpty

/-- Whether a line holds the directive and nothing else. -/
def isDirective (line : Line) : Bool :=
  match line.dropWhile isBlank with
  | q :: rest =>
    (q = '"' || q = '\x27') &&
      match afterStart? ("use client".toList ++ [q]) rest with
      | some rest => isDirectiveEnd rest
      | none => false
  | [] => false

/-- Whether a text has a line with the directive. -/
def hasDirective (s : List Char) : Bool :=
  (linesOf s).any isDirective

/-- Looks for a word and a mark behind it, with white space allowed between. The flag says that the
character in front belongs to a word. -/
def usesWord (word : List Char) (mark : Char) : Bool → List Char → Bool
  | _, [] => false
  | inWord, c :: rest =>
    (!inWord && match afterStart? word (c :: rest) with
      | some after => (after.dropWhile isBlank).head? = some mark
      | none => false) || usesWord word mark (isWord c) rest

/-- A quotation mark of either kind. -/
def isQuote (c : Char) : Bool :=
  c = '"' || c = '\x27'

/-- Whether a package, or a path in it, stands between quotes at the front of a text. -/
def startsWithModule (name : List Char) : List Char → Bool
  | [] => false
  | q :: rest =>
    isQuote q && match afterStart? name rest with
      | some (c :: rest) => isQuote c || (c = '/' && rest.any isQuote)
      | _ => false

/-- Whether a text mentions a package, or a path in it, between quotes. -/
def mentionsModule (name : List Char) : List Char → Bool
  | [] => false
  | c :: rest => startsWithModule name (c :: rest) || mentionsModule name rest

/-- Whether a text uses anything that exists only in a browser. -/
def isForClient (modules : List String) (s : List Char) : Bool :=
  usesWord "useState".toList '(' false s || usesWord "useEffect".toList '(' false s ||
    usesWord "onClick".toList '=' false s || modules.any fun m => mentionsModule m.toList s

/-- Whether a text needs the directive and lacks it. -/
def needsDirective (modules : List String) (s : List Char) : Bool :=
  !hasDirective s && isForClient modules s

/-- Puts a line first, or second behind a line that names an interpreter. -/
def insertLine (line : Line) : List Line → List Line
  | first :: rest =>
    if "#!".toList.isPrefixOf first then first :: line :: rest else line :: first :: rest
  | [] => [line]

/-- Puts the directive in front. -/
def addDirective (directive : String) (s : List Char) : List Char :=
  unlines (insertLine directive.toList (linesOf s))

/-- The steps of preprocessing. -/
inductive Change where
  | stripFences
  | clientDirective
  deriving DecidableEq, Repr

/-- The name of a step. -/
def Change.name : Change → String
  | stripFences => "strip_fences"
  | clientDirective => "client_directive"

/-- What preprocessing looks for and puts in. -/
structure Rules where
  /-- The packages that exist only in a browser. -/
  clientModules : List String
  directive : String
  deriving DecidableEq, Repr

/-- The packages for the browser where none are chosen. -/
def standardModules : List String := [
  "react-hot-toast", "sonner", "@dnd-kit", "embla-carousel-react", "recharts", "cmdk", "input-otp",
  "react-day-picker", "react-hook-form", "next-themes", "vaul"]

/-- The directive where none is chosen. -/
def standardDirective : String := "\"use client\";"

/-- Applies both steps to a text, and tells which of them changed it. -/
def text (rules : Rules) (s : List Char) : List Char × List Change :=
  let stripped := stripFences? s
  let body := stripped.getD s
  let steps := if stripped.isSome then [Change.stripFences] else []
  if needsDirective rules.clientModules body then
    (addDirective rules.directive body, steps ++ [.clientDirective])
  else (body, steps)

end ModuleRepair.Preprocess
