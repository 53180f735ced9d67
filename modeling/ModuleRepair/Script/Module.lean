import ModuleRepair.Script.Clause
import ModuleRepair.Script.Declaring

/-!
# Reading a module

A module is a list of top-level statements with blanks and comments between them. Each statement
takes at least one byte, so the list ends; where no statement can be read, the module is broken and
has no outline.
-/
namespace ModuleRepair.Script

open ModuleRepair.Text Reader

/-- Words that stand for values of their own and so name nothing. -/
def constantWords : List String := ["undefined", "null", "true", "false", "this", "super"]

/-- What is exported by default. -/
def defaultValue (s : Scope) : Reader DefaultValue := do
  gap
  (do
    let d ← declared s .alone
    return .declaration d.names.head?) <|> (do
    let name ← text valueWord?
    if constantWords.contains name then failure
    close s true
    return .identifier name) <|> do
  pass s (Shape.piece (.expression .line))
  close s true
  return .expression

def exportStatement (s : Scope) : Reader Statement := do
  pass s (.many (Shape.piece .decorator ++ Shape.gap))
  keyword "export"
  link s true
  (do
    keyword "default"
    return .exportDefault (← defaultValue s)) <|>
  exportClause s <|>
  (return .exportDeclaration (← declared s .exported)) <|>
  only s.language.typed ((do
    symbol "="
    pass s (Shape.piece (.expression .line))
    close s true
    return .other) <|> (do
    keyword "as"
    pass s (Shape.gap ++ Shape.kw "namespace" ++ Shape.gap ++ Shape.word)
    close s false
    return .other) <|> (do
    pass s (Shape.kw "declare" ++ Shape.linkName s.language .line ++
      (Shape.kw "global" ++ Shape.gap ++ Shape.piece .block <|> Shape.piece .statement))
    return .other) <|> do
    keyword "import"
    gap
    importAlias s)

/-- A statement that neither imports nor exports. -/
def plainStatement (s : Scope) : Reader Statement := (do
    let d ← declared s .alone
    return if d.kind.countsAlone then .declaration d else .other) <|> (do
    skip string?
    close s true
    return .directive) <|> do
  pass s ((.absent (Shape.anyKw ["import", "export"]) ++ Shape.piece .statement) <|>
    (Shape.piece (.expression .line) ++ Shape.close s.language))
  return .other

/-- A top-level statement. -/
def statementHere (s : Scope) : Reader Statement :=
  importStatement s <|> exportStatement s <|> plainStatement s

/-- The statements of a text from a place on. The argument bounds their number. -/
def itemsFrom (s : Scope) : Nat → Cursor → Option (List Item)
  | 0, _ => none
  | n + 1, c =>
    let start := c.skipGap
    if start.rest.isEmpty then some []
    else match statementHere s start with
      | none => none
      | some (statement, stop) =>
        if start.offset < stop.offset then
          (itemsFrom s n stop).map (⟨statement, ⟨start.offset, stop.offset⟩⟩ :: ·)
        else none

/-- The top-level statements of a module; nothing when it is broken. Only the first one can name an
interpreter. -/
def items? (language : Language) (text : List Char) : Option (List Item) :=
  let s := Scope.of language text
  let start := (Cursor.start text).skipGap
  match start.token? hashBang? with
  | some stop =>
    (itemsFrom s s.fuel stop).map (⟨.hashBang, ⟨start.offset, stop.offset⟩⟩ :: ·)
  | none => itemsFrom s s.fuel start

/-- The outline of a module; nothing when it is broken. -/
def outline? (language : Language) (text : String) : Option Outline :=
  (items? language text.toList).map Outline.ofItems

end ModuleRepair.Script
