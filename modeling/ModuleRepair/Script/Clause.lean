import ModuleRepair.Script.Reader
import ModuleRepair.Script.Outline
import ModuleRepair.Text.Blank

/-!
# Import and export clauses
-/
namespace ModuleRepair.Script

open ModuleRepair.Text Reader

/-- A text without the quotes around it, if it has some. -/
def unquoted (s : String) : String :=
  match s.toList with
  | q :: rest =>
    if (q = '"' || q = '\x27' || q = '\x60') && rest.getLast? = some q then
      String.ofList rest.dropLast
    else s
  | [] => s

/-- The words of an entry in braces, in which a string may stand for a name. -/
def entryWords : Nat → Reader (List String)
  | 0 => pure []
  | n + 1 => (do
      gap
      let w ← text word? <|> text string?
      return w :: (← entryWords n)) <|> pure []

/-- The rest of the entries in braces, each by its words. The argument bounds their number. -/
def entries : Nat → Reader (List (List String))
  | 0 => failure
  | n + 1 => (do
      gap
      symbol "\x7d"
      return []) <|> do
    let entry ← entryWords 4
    gap
    (do
      symbol ","
      return entry :: (← entries n)) <|> do
    symbol "\x7d"
    return [entry]

/-- The entries in braces, each by its words. -/
def braced (s : Scope) : Reader (List (List String)) := do
  symbol "\x7b"
  entries s.fuel

/-- A binding of an import, by its words. A leading `type` marks a type, unless it is itself the
name. -/
def namedImport? (typed : Bool) : List String → Option NamedImport
  | [name] => some ⟨name, none, false⟩
  | [mark, name] =>
    if typed && (mark = "type" || mark = "typeof") then some ⟨name, none, mark = "type"⟩ else none
  | [name, "as", localName] => some ⟨name, some localName, false⟩
  | [mark, name, "as", localName] =>
    if typed && (mark = "type" || mark = "typeof") then
      some ⟨name, some localName, mark = "type"⟩
    else none
  | _ => none

/-- A name of an export, by its words. -/
def exportSpecifier? (typed : Bool) (entry : List String) : Option ExportSpecifier :=
  (namedImport? typed entry).map fun b =>
    ⟨unquoted b.name, unquoted (b.renamed.getD b.name)⟩

/-- The namespace or the names that an import binds. -/
def importedBindings (s : Scope) : Reader (Option String × List NamedImport) := (do
    symbol "*"
    gap
    keyword "as"
    gap
    return (some (← text word?), [])) <|> do
  let entries ← braced s
  let named ← (entries.mapM (namedImport? s.language.typed) : Option _)
  return (none, named)

/-- The bindings of an import. -/
def importClause (s : Scope) : Reader (Option String × Option String × List NamedImport) := (do
    return (none, ← importedBindings s)) <|> do
  let defaultName ← text word?
  (do
    gap
    symbol ","
    gap
    return (some defaultName, ← importedBindings s)) <|>
    return (some defaultName, none, [])

/-- The specifier behind `from`. -/
def fromClause : Reader String := do
  gap
  keyword "from"
  gap
  text string?

/-- The attributes behind a specifier. -/
def attributes (s : Scope) : Reader (Option String) := (do
    link s false
    let keyword := .either (Shape.kw "with") (Pattern.only s.language.typed (Shape.kw "assert"))
    return some (← slice s (keyword ++ Shape.gap ++ Shape.piece .object))) <|> pure none

/-- Whether a word behind `type` shows that `type` is the default name itself. -/
def namesType (c : Cursor) : Bool :=
  match c.rest with
  | ',' :: _ | '=' :: _ => true
  | _ => ((do keyword "from"; gap; skip string?) c).isSome

/-- The word in front of a clause that marks an import of types. -/
def typeMark (s : Scope) : Reader Bool := (do
    let mark ← only s.language.typed
      (text (keyword? "type".toList) <|> text (keyword? "typeof".toList))
    gap
    if namesType (← get) then failure
    return mark = "type") <|> pure false

/-- Whether the text up to this place ends with a semicolon. -/
def endsWithSemicolon (start : Cursor) : Reader Bool := fun c =>
  some ((dropEnd isBlank (start.textTo c)).getLast? == some ';', c)

/-- An import declaration from its specifier as it is written. -/
def importFrom (specifier : String) (typeOnly : Bool)
    (clause : Option String × Option String × List NamedImport) (attributes : Option String)
    (semicolon : Bool) : Import where
  specifier := unquoted specifier
  defaultName := clause.1
  namespaceName := clause.2.1
  named := clause.2.2
  typeOnly
  quote := String.ofList (specifier.toList.take 1)
  semicolon
  attributes

/-- An import that gives another name to a module or to a part of a namespace. -/
def importAlias (s : Scope) : Reader Statement := only s.language.typed do
  pass s (.either (Shape.kw "type" ++ Shape.gap ++ Shape.word ++ Shape.gap ++ Shape.sym "=")
    (Shape.word ++ Shape.gap ++ Shape.sym "="))
  pass s (Shape.gap ++ dottedName ++ Pattern.maybe (Shape.gap ++ Shape.piece .arguments))
  close s false
  return .other

def importStatement (s : Scope) : Reader Statement := do
  let start ← get
  keyword "import"
  gap
  importAlias s <|> do
  let (specifier, typeOnly, clause) ← (do
      return (← text string?, false, none, none, [])) <|> (do
    let typeOnly ← typeMark s
    let clause ← importClause s
    return (← fromClause, typeOnly, clause))
  let attributes ← attributes s
  close s false
  return .importing (importFrom specifier typeOnly clause attributes (← endsWithSemicolon start))

/-- What follows `export` and names things in braces, or everything of another module. -/
def exportClause (s : Scope) : Reader Statement := do
  (do only s.language.typed (keyword "type"); gap) <|> pure ()
  (do
    symbol "*"
    let name ← (do
        gap
        keyword "as"
        gap
        return some (unquoted (← text word? <|> text string?))) <|> pure none
    let _ ← fromClause
    let _ ← attributes s
    close s false
    return .exportAll name) <|> do
  let entries ← braced s
  let specifiers ← (entries.mapM (exportSpecifier? s.language.typed) : Option _)
  let source ← (do
      let source ← fromClause
      let _ ← attributes s
      return some source) <|> pure none
  close s false
  return .exportNames specifiers source.isSome

end ModuleRepair.Script
