import ModuleRepair.Script.Grammar
import ModuleRepair.Script.Language

/-!
# The grammar of scripts

The rules of statements, expressions, types and markup. They only say where a piece of a script
ends; what a module imports, exports and declares is read on top of them (`Script.items?`). The
grammar is as lenient as it can be while it keeps pieces apart: operators have no precedence, and
a keyword may stand for a name where it means nothing else.
-/
namespace ModuleRepair.Script

/-- Where an expression or type stands. -/
structure Place where
  /-- In a statement, so that a line break may end it. -/
  ends : Bool
  /-- Between the question mark and the colon of a conditional expression. -/
  consequent : Bool
  deriving DecidableEq, Repr

/-- Between brackets. -/
def Place.inner : Place := ⟨false, false⟩

/-- Directly in a statement. -/
def Place.line : Place := ⟨true, false⟩

/-- The rules of the grammar. -/
inductive Rule where
  | expression (p : Place)
  | assignment (p : Place)
  | unary (p : Place)
  | operand (p : Place)
  | primary (p : Place)
  | arrowBody (p : Place)
  | arguments
  | parenthesized
  | array
  | object
  | template
  | element
  | binding
  | parameters
  | functionTail
  | decorator
  | classTail
  | typeAt (p : Place)
  | typeUnion (p : Place)
  | typeOperand (p : Place)
  | typePrimary (p : Place)
  | typeArguments
  | typeParameters
  | objectType
  | enumBody
  | declarator (p : Place)
  | block
  | statement
  deriving DecidableEq, Repr

/-- A pattern over the rules of the grammar. -/
abbrev Shape := Pattern Rule

namespace Shape

open Pattern

/-- The pattern of a rule. -/
def piece (r : Rule) : Shape := rule r

/-- A keyword. -/
def kw (s : String) : Shape := token (keyword? s.toList)

/-- A piece of punctuation. -/
def sym (s : String) : Shape := token (symbol? s.toList)

/-- Blanks and comments, or nothing. -/
def gap : Shape := token fun s => some (gapLength s)

def word : Shape := token word?

/-- A string literal. -/
def str : Shape := token string?

/-- One of several keywords. -/
def anyKw (words : List String) : Shape :=
  words.foldr (fun w rest => kw w <|> rest) never

/-- One of several pieces of punctuation. -/
def anySym (symbols : List String) : Shape :=
  symbols.foldr (fun w rest => sym w <|> rest) never

/-- Items with commas between them, and perhaps one behind the last. -/
def commaList (item : Shape) : Shape :=
  maybe (item ++ many (gap ++ sym "," ++ item)) ++ maybe (gap ++ sym ",")

/-- An expression between brackets. -/
def expression : Shape := piece (.expression .inner)

/-- An expression without top-level commas, between brackets. -/
def assignment : Shape := piece (.assignment .inner)

/-- A type between brackets. -/
def typeHere : Shape := piece (.typeAt .inner)

/-- An annotation, in languages that have them. -/
def annotation (l : Language) (p : Place) : Shape :=
  maybe (only l.typed (gap ++ sym ":" ++ gap ++ piece (.typeAt p)))

/-- A gap behind an operand, unless the statement ends in it. -/
def link (l : Language) (p : Place) : Shape :=
  if p.ends then token (joinLength ⟨l.typed, true, false⟩) else gap

/-- A gap behind a name or type, unless the statement ends in it. -/
def linkName (l : Language) (p : Place) : Shape :=
  if p.ends then token (joinLength ⟨l.typed, false, false⟩) else gap

/-- The end of a statement, behind an operand or behind another token. -/
def close (l : Language) : Shape :=
  token (closeLength ⟨l.typed, true, false⟩) <|> token (closeLength ⟨l.typed, false, false⟩)

end Shape

open Pattern Shape

/-! ## Expressions -/

/-- Words that start a statement or join operands, and so name nothing. -/
def reservedWords : List String := [
  "in", "instanceof", "if", "else", "for", "while", "do", "switch", "case", "try", "catch",
  "finally", "throw", "return", "break", "continue", "const", "var", "with", "debugger", "extends",
  "function", "class", "import", "enum", "new", "typeof", "void", "delete"]

/-- A word that can stand for a value. -/
def valueWord? (s : List Char) : Option Nat :=
  match word? s with
  | some n => if reservedWords.any fun w => w.toList == s.take n then none else some n
  | none => none

/-- The symbols between operands and in front of an assigned value, longer ones first. -/
def operatorSymbols : List (List Char) := [
  ">>>=", "===", "!==", "**=", "<<=", ">>=", ">>>", "&&=", "||=", "??=", "==", "!=", "<=", ">=",
  "&&", "||", "??", "**", "<<", ">>", "+=", "-=", "*=", "/=", "%=", "&=", "|=", "^=", "+", "-", "*",
  "/", "%", "<", ">", "&", "|", "^", "="].map String.toList

/-- An operator between operands. -/
def operator? (s : List Char) : Option Nat :=
  if "=>".toList.isPrefixOf s then none
  else (operatorSymbols.find? (·.isPrefixOf s)).map (·.length)

/-- Whether type arguments in an expression are read as such, going by what follows them: a call, a
template, the end of a piece, or an operator that starts no operand. -/
def acceptsTypeArguments (s : List Char) : Option Nat :=
  let n := gapLength s
  let ends := ["(", "\x60", ")", "]", ",", ";", ".", "?.", ":", "\x7d", "&&", "||", "??", "==",
    "!=", "|", "&", "^"]
  let rest := s.drop n
  if rest.isEmpty || ends.any (fun e => e.toList.isPrefixOf rest) || (s.take n).any isNewline
  then some 0 else none

/-- What may follow an operand and takes it further. -/
def suffix (l : Language) : Shape :=
  sym "?." ++ gap ++ (piece .arguments <|> sym "[" ++ expression ++ gap ++ sym "]" <|>
    piece .template <|> only l.typed (piece .typeArguments ++ gap ++ piece .arguments) <|> maybe (sym "#") ++ word) <|>
  sym "." ++ gap ++ maybe (sym "#") ++ word <|>
  sym "[" ++ expression ++ gap ++ sym "]" <|>
  piece .arguments <|>
  piece .template <|>
  only l.typed (piece .typeArguments ++ token acceptsTypeArguments) <|>
  only l.typed (sym "!" ++ absent (sym "=")) <|>
  sym "++" <|> sym "--"

/-- What may follow an operand with its suffixes: an operator and another operand, a type, or the
branches of a conditional expression. -/
def continuing (l : Language) (p : Place) : Shape :=
  token operator? ++ gap ++ piece (.unary p) <|>
  anyKw ["instanceof", "in"] ++ gap ++ piece (.unary p) <|>
  only l.typed (anyKw ["as", "satisfies"] ++ gap ++ piece (.typeUnion p)) <|>
  sym "?" ++ piece (.assignment ⟨false, true⟩) ++ gap ++ sym ":" ++ piece (.assignment p)

/-- The arrow of a function and its body, with or without a type for its result. Between the
question mark and the colon of a conditional, a result type needs that colon behind the body. -/
def arrowTail (l : Language) (p : Place) : Shape :=
  gap ++ sym "=>" ++ piece (.arrowBody p) <|>
  only l.typed (gap ++ sym ":" ++ gap ++ typeHere ++ gap ++ sym "=>" ++ piece (.arrowBody p) ++
    (if p.consequent then ahead (gap ++ sym ":") else done))

/-- A function behind its keyword. -/
def functionExpression : Shape :=
  kw "function" ++ gap ++ maybe (sym "*" ++ gap) ++ maybe (word ++ gap) ++ piece .functionTail

/-- Parameters, result type and body of a function with an arrow. -/
def arrowFunction (l : Language) (p : Place) : Shape :=
  maybe (only l.typed (piece .typeParameters ++ gap)) ++ piece .parameters ++ arrowTail l p

def propertyName : Shape :=
  str <|> token number? <|> sym "[" ++ expression ++ gap ++ sym "]" <|> maybe (sym "#") ++ word

def objectMember : Shape :=
  gap ++ (sym "..." ++ assignment <|>
    propertyName ++ gap ++ sym ":" ++ assignment <|>
    anyKw ["get", "set"] ++ gap ++ propertyName ++ gap ++ piece .functionTail <|>
    maybe (kw "async" ++ gap) ++ maybe (sym "*" ++ gap) ++ propertyName ++ gap ++
      piece .functionTail <|>
    propertyName ++ gap ++ piece .functionTail <|>
    word ++ maybe (gap ++ sym "=" ++ assignment))

/-- A parenthesized expression, or the parameters of a function with an arrow. -/
def coverItem (l : Language) : Shape :=
  gap ++ maybe (sym "...") ++ assignment ++ maybe (gap ++ sym "?") ++ annotation l .inner ++
    maybe (gap ++ sym "=" ++ assignment)

/-- A value without suffixes and operators. -/
def primary (l : Language) (p : Place) : Shape :=
  str <|> token number? <|> piece .template <|> token regex? <|>
  piece .parenthesized ++ maybe (arrowTail l p) <|>
  piece .array <|> piece .object <|>
  kw "async" ++ gap ++ (functionExpression <|> word ++ gap ++ sym "=>" ++ piece (.arrowBody p) <|>
    arrowFunction l p) <|>
  functionExpression <|>
  many (piece .decorator ++ gap) ++ kw "class" ++ piece .classTail <|>
  kw "import" ++ gap ++ (piece .arguments <|> sym "." ++ gap ++ word) <|>
  kw "new" ++ gap ++ sym "." ++ gap ++ kw "target" <|>
  word ++ gap ++ sym "=>" ++ piece (.arrowBody p) <|>
  token valueWord? <|>
  only l.typed (arrowFunction l p) <|>
  only l.markup (piece .element) <|>
  sym "#" ++ word

/-- An operand with what stands in front of it. -/
def unary (l : Language) (p : Place) : Shape :=
  anySym ["++", "--", "+", "-", "!", "~"] ++ gap ++ piece (.unary p) <|>
  anyKw ["typeof", "void", "delete", "await", "new"] ++ gap ++ piece (.unary p) <|>
  kw "yield" ++ maybe (linkName l p ++ maybe (sym "*") ++ piece (.assignment p)) <|>
  piece (.operand p) <|>
  only (l.typed && !l.markup) (sym "<" ++ gap ++ typeHere ++ gap ++ sym ">" ++ gap ++
    piece (.unary p))

/-- A template between its quotes. -/
def template : Shape :=
  sym "\x60" ++ many (token templateText? <|> sym "$\x7b" ++ expression ++ gap ++ sym "\x7d") ++
    sym "\x60"

/-- A markup attribute. -/
def elementAttribute : Shape :=
  gap ++ (sym "\x7b" ++ gap ++ sym "..." ++ assignment ++ gap ++ sym "\x7d" <|>
    token markupName? ++ maybe (gap ++ sym "=" ++ gap ++ (token markupString? <|>
      sym "\x7b" ++ expression ++ gap ++ sym "\x7d" <|> piece .element)))

/-- What stands between the tags of an element. -/
def children : Shape :=
  many (token markupText? <|>
    sym "\x7b" ++ maybe (gap ++ maybe (sym "...") ++ expression) ++ gap ++ sym "\x7d" <|>
    piece .element)

/-- A markup element or fragment. -/
def element (l : Language) : Shape :=
  sym "<" ++ gap ++ (
    sym ">" ++ children ++ sym "<" ++ gap ++ sym "/" ++ gap ++ sym ">" <|>
    token markupName? ++ maybe (only l.typed (piece .typeArguments)) ++ many elementAttribute ++
      gap ++ (
      sym "/" ++ gap ++ sym ">" <|>
      sym ">" ++ children ++ sym "<" ++ gap ++ sym "/" ++ gap ++ token markupName? ++ gap ++
        sym ">"))

/-! ## Bindings, functions and classes -/

/-- A default value. -/
def initial : Shape := maybe (gap ++ sym "=" ++ assignment)

/-- A name, or a pattern that takes a value apart. -/
def binding : Shape :=
  sym "\x7b" ++ commaList (gap ++ (sym "..." ++ gap ++ piece .binding <|>
    propertyName ++ gap ++ sym ":" ++ gap ++ piece .binding ++ initial <|>
    word ++ initial)) ++ gap ++ sym "\x7d" <|>
  sym "[" ++
    many (gap ++ sym "," <|> gap ++ maybe (sym "..." ++ gap) ++ piece .binding ++ initial) ++ gap ++ sym "]" <|>
  word

/-- A parameter of a function. -/
def parameter (l : Language) : Shape :=
  gap ++ many (piece .decorator ++ gap) ++
    many (only l.typed (anyKw ["public", "private", "protected", "readonly", "override"] ++ gap ++
      ahead (word <|> anySym ["\x7b", "["]))) ++
    maybe (sym "..." ++ gap) ++ piece .binding ++ maybe (only l.typed (gap ++ sym "?")) ++
    annotation l .inner ++ initial

/-- Type parameters, parameters and result type of a function. -/
def signature (l : Language) (p : Place) : Shape :=
  maybe (only l.typed (piece .typeParameters ++ gap)) ++ piece .parameters ++ annotation l p

def decorator : Shape :=
  sym "@" ++ gap ++ (sym "(" ++ expression ++ gap ++ sym ")" <|>
    word ++ many (gap ++ sym "." ++ gap ++ word) ++ maybe (gap ++ piece .arguments))

/-- What the name of a class member may start with. -/
def startsName : Shape :=
  str <|> token number? <|> anySym ["[", "#", "*"] <|> word

/-- The words in front of a class member. -/
def memberWords : List String := [
  "public", "private", "protected", "static", "readonly", "abstract", "declare", "override",
  "async", "accessor", "get", "set"]

def classMember (l : Language) : Shape :=
  gap ++ (sym ";" <|> piece .decorator <|> kw "static" ++ gap ++ piece .block <|>
    many (anyKw memberWords ++ gap ++ ahead startsName) ++ maybe (sym "*" ++ gap) ++
    (only l.typed (sym "[" ++ gap ++ word ++ gap ++ sym ":" ++ gap ++ typeHere ++ gap ++
      sym "]") <|> propertyName) ++
    maybe (only l.typed (gap ++ anySym ["?", "!"])) ++
    (gap ++ signature l .line ++ maybe (gap ++ piece .block) <|>
      annotation l .line ++ maybe (gap ++ sym "=" ++ piece (.assignment .line))))

/-- A class behind its keyword. -/
def classTail (l : Language) : Shape :=
  maybe (gap ++ absent (anyKw ["extends", "implements"]) ++ word) ++
  maybe (only l.typed (gap ++ piece .typeParameters)) ++
  many (gap ++ (kw "extends" ++ gap ++ piece (.operand .inner) ++
      maybe (only l.typed (gap ++ piece .typeArguments)) <|>
    only l.typed (kw "implements" ++ gap ++ typeHere ++
      many (gap ++ sym "," ++ gap ++ typeHere)))) ++
  gap ++ sym "\x7b" ++ many (classMember l) ++ gap ++ sym "\x7d"

/-! ## Types -/

def functionType (p : Place) : Shape :=
  maybe (kw "abstract" ++ gap) ++ maybe (kw "new" ++ gap) ++ maybe (piece .typeParameters ++ gap) ++
    piece .parameters ++ gap ++ sym "=>" ++ gap ++ piece (.typeAt p)

def typeAt (l : Language) (p : Place) : Shape :=
  functionType p <|>
  kw "asserts" ++ gap ++ word ++ maybe (linkName l p ++ kw "is" ++ gap ++ piece (.typeAt p)) <|>
  word ++ linkName l p ++ kw "is" ++ gap ++ piece (.typeAt p) <|>
  piece (.typeUnion p) ++ maybe (linkName l p ++ kw "extends" ++ gap ++
    piece (.typeUnion .inner) ++ gap ++ sym "?" ++ gap ++ typeHere ++ gap ++ sym ":" ++ gap ++ piece (.typeAt p))

/-- Alternatives and intersections. -/
def typeUnion (l : Language) (p : Place) : Shape :=
  maybe (anySym ["|", "&"] ++ gap) ++ piece (.typeOperand p) ++
    many (linkName l p ++ anySym ["|", "&"] ++ gap ++ piece (.typeOperand p))

/-- A type between the operators of a union. -/
def typeOperand (p : Place) : Shape :=
  anyKw ["keyof", "unique", "readonly"] ++ gap ++ piece (.typeOperand p) <|>
  kw "typeof" ++ gap ++ piece (.typePrimary p) <|>
  kw "infer" ++ gap ++ word ++ maybe (gap ++ kw "extends" ++ gap ++ piece (.typeUnion .inner)) <|>
  functionType p <|>
  piece (.typePrimary p)

def tupleMember : Shape :=
  gap ++ maybe (sym "..." ++ gap) ++
    maybe (word ++ gap ++ maybe (sym "?" ++ gap) ++ sym ":" ++ gap) ++ typeHere ++ maybe (gap ++ sym "?")

/-- A type without operators, with its indices. -/
def typePrimary (l : Language) (p : Place) : Shape :=
  (sym "(" ++ gap ++ typeHere ++ gap ++ sym ")" <|>
    sym "[" ++ commaList tupleMember ++ gap ++ sym "]" <|>
    piece .objectType <|> piece .template <|> str <|>
    maybe (sym "-" ++ gap) ++ token number? <|>
    (kw "import" ++ gap ++ piece .arguments <|> word) ++ many (gap ++ sym "." ++ gap ++ word) ++
      maybe (linkName l p ++ piece .typeArguments)) ++
  many (linkName l p ++ sym "[" ++ gap ++ maybe (typeHere ++ gap) ++ sym "]")

def typeArguments : Shape :=
  sym "<" ++ commaList (gap ++ typeHere) ++ gap ++ sym ">"

def typeParameters : Shape :=
  sym "<" ++ commaList (gap ++ many (anyKw ["const", "in", "out"] ++ gap ++ ahead word) ++ word ++
    maybe (gap ++ kw "extends" ++ gap ++ typeHere) ++ maybe (gap ++ sym "=" ++ gap ++ typeHere)) ++
    gap ++ sym ">"

/-- A member of an object type: a separator, a mapping, an index, a call, a method or a property. -/
def typeMember (l : Language) : Shape :=
  let result := maybe (gap ++ sym ":" ++ gap ++ piece (.typeAt .line))
  gap ++ (anySym [";", ","] <|>
    many (maybe (anySym ["+", "-"]) ++ anyKw ["readonly", "get", "set"] ++ gap ++
      ahead startsName) ++ (
      sym "[" ++ gap ++ word ++ gap ++ kw "in" ++ gap ++ typeHere ++ gap ++
        maybe (kw "as" ++ gap ++ typeHere ++ gap) ++ sym "]" ++
        maybe (gap ++ maybe (anySym ["+", "-"]) ++ sym "?") ++ result <|>
      sym "[" ++ gap ++ word ++ gap ++ sym ":" ++ gap ++ typeHere ++ gap ++ sym "]" ++ result <|>
      maybe (kw "new" ++ gap) ++ signature l .line <|>
      propertyName ++ maybe (gap ++ sym "?") ++ (gap ++ signature l .line <|> result)))

/-- The members of an enumeration. -/
def enumBody : Shape :=
  sym "\x7b" ++ commaList (gap ++ propertyName ++ initial) ++ gap ++ sym "\x7d"

/-! ## Statements -/

/-- A condition in parentheses. -/
def condition : Shape := gap ++ sym "(" ++ expression ++ gap ++ sym ")"

/-- A declared variable. -/
def declarator (l : Language) (p : Place) : Shape :=
  gap ++ piece .binding ++ maybe (only l.typed (linkName l p ++ sym "!" ++ absent (sym "="))) ++
    annotation l p ++ maybe (gap ++ sym "=" ++ piece (.assignment p))

/-- Declared variables. -/
def declarators (l : Language) (p : Place) : Shape :=
  piece (.declarator p) ++
    many ((link l p <|> linkName l p) ++ sym "," ++ piece (.declarator p))

/-- The head of a loop over values or with a counter. -/
def loopHead (l : Language) : Shape :=
  gap ++ sym "(" ++
    maybe (gap ++ anyKw ["const", "let", "var"] ++ declarators l .inner <|> expression) ++ gap ++ (anyKw ["of", "in"] ++ expression ++ gap ++ sym ")" <|>
      sym ";" ++ maybe expression ++ gap ++ sym ";" ++ maybe expression ++ gap ++ sym ")" <|>
      sym ")")

/-- A function with its name, or only its signature in languages with types. -/
def functionDeclaration (l : Language) : Shape :=
  maybe (kw "async" ++ link l .line) ++ kw "function" ++ gap ++ maybe (sym "*" ++ gap) ++ word ++
    gap ++ signature l .line ++ (gap ++ piece .block <|> only l.typed (close l))

def dottedName : Shape := word ++ many (gap ++ sym "." ++ gap ++ word)

/-- A declaration that exists only in languages with types. -/
def typedDeclaration (l : Language) : Shape :=
  kw "interface" ++ gap ++ word ++ gap ++ maybe (piece .typeParameters ++ gap) ++
    maybe (kw "extends" ++ gap ++ typeHere ++ many (gap ++ sym "," ++ gap ++ typeHere) ++ gap) ++
    piece .objectType <|>
  kw "type" ++ linkName l .line ++ word ++ gap ++ maybe (piece .typeParameters ++ gap) ++
    sym "=" ++ gap ++ piece (.typeAt .line) ++ close l <|>
  maybe (kw "const" ++ gap) ++ kw "enum" ++ gap ++ word ++ gap ++ piece .enumBody <|>
  many (piece .decorator ++ gap) ++ kw "abstract" ++ linkName l .line ++ kw "class" ++
    piece .classTail <|>
  anyKw ["namespace", "module"] ++ linkName l .line ++ (str <|> dottedName) ++
    (gap ++ piece .block <|> close l) <|>
  kw "declare" ++ linkName l .line ++ (kw "global" ++ gap ++ piece .block <|> piece .statement)

/-- An import or export within the body of a namespace. -/
def nestedModuleStatement (l : Language) : Shape :=
  kw "import" ++ many (gap ++ (word <|> anySym ["*", ",", "=", "."] <|> piece .object)) ++
    maybe (gap ++ (str <|> piece .arguments)) ++ close l <|>
  kw "export" ++ gap ++ maybe (kw "default" ++ gap) ++ (
    piece .object ++ maybe (gap ++ kw "from" ++ gap ++ str) ++ close l <|>
    sym "*" ++ many (gap ++ word) ++ gap ++ str ++ close l <|>
    sym "=" ++ piece (.expression .line) ++ close l <|>
    piece .statement)

/-- A statement that starts with a keyword of its own. -/
def controlStatement (l : Language) : Shape :=
  kw "if" ++ condition ++ piece .statement ++ maybe (gap ++ kw "else" ++ piece .statement) <|>
  kw "for" ++ maybe (gap ++ kw "await") ++ loopHead l ++ piece .statement <|>
  kw "while" ++ condition ++ piece .statement <|>
  kw "do" ++ piece .statement ++ gap ++ kw "while" ++ condition ++ maybe (close l) <|>
  kw "switch" ++ condition ++ gap ++ sym "\x7b" ++
    many (gap ++ (kw "case" ++ expression ++ gap ++ sym ":" <|> kw "default" ++ gap ++ sym ":") ++
      many (absent (gap ++ anyKw ["case", "default"]) ++ piece .statement)) ++ gap ++ sym "\x7d" <|>
  kw "try" ++ gap ++ piece .block ++
    maybe (gap ++ kw "catch" ++ gap ++ maybe (piece .parameters ++ gap) ++ piece .block) ++
    maybe (gap ++ kw "finally" ++ gap ++ piece .block) <|>
  kw "throw" ++ piece (.expression .line) ++ close l <|>
  kw "return" ++ maybe (linkName l .line ++ piece (.expression .line)) ++ close l <|>
  anyKw ["break", "continue"] ++ maybe (linkName l .line ++ word) ++ close l <|>
  kw "debugger" ++ close l <|>
  kw "with" ++ condition ++ piece .statement

/-- A statement that declares something. -/
def declaration (l : Language) : Shape :=
  functionDeclaration l <|>
  only l.typed (typedDeclaration l) <|>
  anyKw ["const", "var"] ++ declarators l .line ++ close l <|>
  kw "let" ++ link l .line ++ declarators l .line ++ close l <|>
  many (piece .decorator ++ gap) ++ kw "class" ++ piece .classTail <|>
  only (!l.typed) (maybe (kw "await" ++ link l .line) ++ kw "using" ++ link l .line ++ ahead word ++
    declarators l .line ++ close l)

def statement (l : Language) : Shape :=
  gap ++ (piece .block <|> sym ";" <|> controlStatement l <|> declaration l <|>
    nestedModuleStatement l <|>
    token valueWord? ++ gap ++ sym ":" ++ piece .statement <|>
    piece (.expression .line) ++ close l)

def grammar (l : Language) : Rule → Shape
  | .expression p =>
    piece (.assignment p) ++ many (link l p ++ sym "," ++ piece (.assignment p))
  | .assignment p => gap ++ piece (.unary p) ++ many (link l p ++ continuing l p)
  | .unary p => unary l p
  | .operand p => piece (.primary p) ++ many (link l p ++ suffix l)
  | .primary p => primary l p
  | .arrowBody p => gap ++ (piece .block <|> piece (.assignment p))
  | .arguments => sym "(" ++ commaList (gap ++ maybe (sym "...") ++ assignment) ++ gap ++ sym ")"
  | .parenthesized => sym "(" ++ commaList (coverItem l) ++ gap ++ sym ")"
  | .array =>
    sym "[" ++ many (gap ++ sym "," <|> gap ++ maybe (sym "...") ++ assignment) ++ gap ++ sym "]"
  | .object => sym "\x7b" ++ commaList objectMember ++ gap ++ sym "\x7d"
  | .template => template
  | .element => element l
  | .binding => binding
  | .parameters => sym "(" ++ commaList (parameter l) ++ gap ++ sym ")"
  | .functionTail => signature l .inner ++ gap ++ piece .block
  | .decorator => decorator
  | .classTail => classTail l
  | .typeAt p => typeAt l p
  | .typeUnion p => typeUnion l p
  | .typeOperand p => typeOperand p
  | .typePrimary p => typePrimary l p
  | .typeArguments => typeArguments
  | .typeParameters => typeParameters
  | .objectType => sym "\x7b" ++ many (typeMember l) ++ gap ++ sym "\x7d"
  | .enumBody => enumBody
  | .declarator p => declarator l p
  | .block => sym "\x7b" ++ many (piece .statement) ++ gap ++ sym "\x7d"
  | .statement => statement l

end ModuleRepair.Script
