import ModuleRepair.Proofs.Script.Parsed

/-!
# Syntax nodes

A statement of a script keeps only what is collected from it. A syntax node keeps what is written:
each declarator of a variable, the new name of a name in braces, the form of an export that offers
nothing. `nodes?` reads the nodes of a module with the readers of its statements, and a module has
the statements of its nodes (`items?_nodes`), so what is collected can be described by the nodes.
-/
namespace ModuleRepair.Script

open ModuleRepair.Text Reader

/-! ## Readers and what becomes of their answers -/

namespace Reader

variable {α β : Type}

theorem map_apply (f : α → β) (r : Reader α) (c : Cursor) :
    (f <$> r) c = (r c).map fun pair => (f pair.1, pair.2) := by
  rw [← bind_pure_comp, Reader.bind_apply]
  cases r c <;> rfl

theorem map_or (f : α → β) (r q : Reader α) : f <$> (r <|> q) = (f <$> r <|> f <$> q) := by
  funext c
  change (f <$> (r <|> q)) c = ((f <$> r) c <|> (f <$> q) c)
  simp only [map_apply]
  change (r c <|> q c).map _ = _
  cases r c <;> rfl

theorem map_only (f : α → β) (holds : Bool) (r : Reader α) :
    f <$> Reader.only holds r = Reader.only holds (f <$> r) := by
  cases holds <;> rfl

theorem map_lift (f : α → β) (value : Option α) :
    f <$> (liftM value : Reader α) = liftM (value.map f) := by
  cases value <;> rfl

/-- Only what a reader answers matters for what becomes of its answers. -/
theorem map_congr {f g : α → β} {r : Reader α} {p : α → Prop} (answers : Answers r p)
    (same : ∀ a, p a → f a = g a) : f <$> r = g <$> r := by
  funext c
  rw [map_apply, map_apply]
  cases read : r c with
  | none => rfl
  | some pair => exact congrArg some (Prod.ext (same _ (answers c pair.1 pair.2 read)) rfl)

theorem map_eq_self {f : α → α} {r : Reader α} {p : α → Prop} (answers : Answers r p)
    (same : ∀ a, p a → f a = a) : f <$> r = r :=
  (map_congr answers same).trans (id_map r)

/-- What a reader would answer here. -/
def peek (r : Reader α) : Reader (Option α) := fun c =>
  some ((r c).map (·.1), c)

/-- Looking ahead takes nothing. -/
theorem peek_bind (r : Reader α) (q : Reader β) : (peek r >>= fun _ => q) = q := by
  funext c
  rw [Reader.bind_apply]
  rfl

end Reader

theorem mapM_map_option {α β γ : Type} (f : γ → Option α) (g : α → β) (l : List γ) :
    l.mapM (fun x => (f x).map g) = (l.mapM f).map (List.map g) := by
  induction l with
  | nil => rfl
  | cons x l ih =>
    simp only [List.mapM_cons, ih]
    cases f x with
    | none => rfl
    | some a => cases l.mapM f <;> rfl

/-! ## Declarations -/

/-- What one variable of a declaration binds. -/
inductive Declarator where
  | identifier (name : String)
  /-- A pattern that takes a value apart. -/
  | pattern
  deriving DecidableEq, Repr

def Declarator.name? : Declarator → Option String
  | identifier name => some name
  | pattern => none

inductive DeclarationForm where
  | declarators (them : List Declarator)
  /-- A declaration of one thing; a module named by a string has no name. -/
  | single (name : Option String)
  deriving DecidableEq, Repr

/-- The names that a declaration binds. -/
def DeclarationForm.names : DeclarationForm → List String
  | declarators them => them.filterMap Declarator.name?
  | single name => name.toList

structure DeclarationNode where
  kind : DeclarationKind
  form : DeclarationForm
  span : Span
  deriving DecidableEq, Repr

def DeclarationNode.names (d : DeclarationNode) : List String :=
  d.form.names

/-- What a statement keeps of a declaration. -/
def DeclarationNode.declared (d : DeclarationNode) : Declared :=
  ⟨d.kind, d.names, d.span⟩

/-- The variables behind their keyword, and whether the last one has a value. -/
def readDeclaratorNodes (s : Scope) : Nat → Reader (List Declarator × Bool)
  | 0 => failure
  | n + 1 => do
    gap
    let declarator ← (return .identifier (← text word?)) <|>
      (do pass s (Shape.piece .binding); return .pattern)
    pass s (Pattern.maybe (Pattern.only s.language.typed
      (Shape.linkName s.language .line ++ Shape.sym "!" ++ .absent (Shape.sym "="))))
    pass s (Shape.annotation s.language .line)
    let valued ← (do
        gap
        symbol "="
        pass s (Shape.piece (.assignment .line))
        return true) <|> pure false
    (do
      link s valued
      symbol ","
      let (declarators, valued) ← readDeclaratorNodes s n
      return (declarator :: declarators, valued)) <|> return ([declarator], valued)

def variableNode (s : Scope) : Reader (DeclarationKind × DeclarationForm) := do
  let kind ← (do keyword "const"; return .blockVariable) <|>
    (do keyword "var"; return .functionVariable) <|>
    (do keyword "let"; link s true; return .blockVariable)
  let (declarators, valued) ← readDeclaratorNodes s s.fuel
  close s valued
  return (kind, .declarators declarators)

/-- The form of a declaration of one thing. -/
def singleForm (read : DeclarationKind × List String) : DeclarationKind × DeclarationForm :=
  (read.1, .single read.2.head?)

def declarationNode (s : Scope) (standing : Standing) : Reader DeclarationNode := do
  let start ← offset
  let (kind, form) ← singleForm <$> functionDeclared s standing <|>
    singleForm <$> typedDeclared s standing <|> variableNode s <|>
    singleForm <$> classDeclared s standing
  return ⟨kind, form, ⟨start, ← offset⟩⟩

section

variable (s : Scope)

theorem readDeclarators_nodes (n : Nat) : readDeclarators s n =
    (fun read => (read.1.filterMap Declarator.name?, read.2)) <$> readDeclaratorNodes s n := by
  induction n with
  | zero => rfl
  | succ n ih =>
    -- The names of one variable are the name of its declarator, if it has one.
    have one : ((return [← text word?]) <|> (do pass s (Shape.piece .binding); return [])) =
        (fun d => (Declarator.name? d).toList) <$>
          ((return .identifier (← text word?)) <|>
            (do pass s (Shape.piece .binding); return .pattern)) := by
      simp only [map_or, map_bind, map_pure, Declarator.name?, Option.toList]
    have joined (d : Declarator) (rest : List Declarator) :
        (d :: rest).filterMap Declarator.name? =
          d.name?.toList ++ rest.filterMap Declarator.name? := by
      cases d <;> rfl
    simp only [readDeclarators, ih, one, bind_map_left]
    simp only [readDeclaratorNodes, map_bind, map_or, map_pure, joined, List.filterMap_nil,
      List.append_nil]

theorem variableDeclared_nodes :
    variableDeclared s = (fun read => (read.1, read.2.names)) <$> variableNode s := by
  simp only [variableDeclared, variableNode, readDeclarators_nodes, map_bind, map_pure,
    bind_map_left, DeclarationForm.names]

/-- A declaration of one thing has one name at most. -/
def OneName (read : DeclarationKind × List String) : Prop :=
  read.2.length ≤ 1

theorem functionDeclared_oneName (standing : Standing) :
    Answers (functionDeclared s standing) OneName := by
  refine .after fun _ => .after fun _ => .after fun _ => .after fun _ => .after fun _ => ?_
  exact .or (.after fun _ => .after fun _ => .pure (Nat.le_refl 1))
    (.after fun _ => .pure (Nat.le_refl 1))

theorem classDeclared_oneName (standing : Standing) :
    Answers (classDeclared s standing) OneName := by
  refine .after fun _ => .after fun abstract => .after fun _ => .after fun _ => .after fun _ =>
    .after fun _ => .after fun _ => ?_
  cases abstract with
  | true => exact .pure (Nat.le_refl 1)
  | false => exact .after fun _ => .pure (Nat.le_refl 1)

theorem typedDeclared_oneName (standing : Standing) :
    Answers (typedDeclared s standing) OneName := by
  refine .only (.or ?interface (.or ?typeAlias (.or ?enumeration (.or ?namespaceBlock ?module))))
  case interface =>
    exact .after fun _ => .after fun _ => .after fun _ => .pure (Nat.le_refl 1)
  case typeAlias =>
    exact .after fun _ => .after fun _ => .after fun _ => .after fun _ => .after fun _ =>
      .pure (Nat.le_refl 1)
  case enumeration =>
    exact .after fun _ => .after fun _ => .after fun _ => .after fun _ => .pure (Nat.le_refl 1)
  case namespaceBlock =>
    exact .after fun _ => .after fun _ => .after fun _ => .after fun _ => .after fun _ =>
      .pure (Nat.le_refl 1)
  case module =>
    have names : Answers ((do skip string?; return []) <|> (return [← slice s dottedName]))
        fun names : List String => names.length ≤ 1 :=
      .or (.after fun _ => .pure (Nat.zero_le 1)) (.after fun _ => .pure (Nat.le_refl 1))
    exact .after fun _ => .after fun _ => names.bind fun _ few => .after fun _ => .pure few

/-- The form of a declaration of one thing has the names that are read. -/
theorem names_singleForm {r : Reader (DeclarationKind × List String)} (h : Answers r OneName) :
    (fun read => (read.1, read.2.names)) <$> singleForm <$> r = r := by
  rw [← comp_map]
  refine map_eq_self h fun read few => Prod.ext rfl ?_
  rcases read with ⟨kind, names⟩
  match names, few with
  | [], _ => rfl
  | [_], _ => rfl

theorem declared_nodes (standing : Standing) :
    declared s standing = DeclarationNode.declared <$> declarationNode s standing := by
  have forms : (functionDeclared s standing <|> typedDeclared s standing <|>
        variableDeclared s <|> classDeclared s standing) =
      (fun read : DeclarationKind × DeclarationForm => (read.1, read.2.names)) <$>
        (singleForm <$> functionDeclared s standing <|>
          singleForm <$> typedDeclared s standing <|> variableNode s <|>
          singleForm <$> classDeclared s standing) := by
    rw [map_or, map_or, map_or, names_singleForm (functionDeclared_oneName s standing),
      names_singleForm (typedDeclared_oneName s standing), ← variableDeclared_nodes,
      names_singleForm (classDeclared_oneName s standing)]
  simp only [declared, declarationNode, forms, map_bind, map_pure, bind_map_left,
    DeclarationNode.declared, DeclarationNode.names]

end

/-! ## Exports -/

/-- A name in the braces of an export, as it is written. -/
structure SpecifierNode where
  name : String
  renamed : Option String
  deriving DecidableEq, Repr

namespace SpecifierNode

/-- The name without quotes. -/
def localName (x : SpecifierNode) : String :=
  unquoted x.name

/-- The name that others import: the new one, when there is one. -/
def exportedName (x : SpecifierNode) : String :=
  match x.renamed with
  | some name => unquoted name
  | none => x.localName

def specifier (x : SpecifierNode) : ExportSpecifier :=
  ⟨x.localName, x.exportedName⟩

end SpecifierNode

/-- What stands behind `export default`. -/
inductive DefaultNode where
  | declaration (d : DeclarationNode)
  | identifier (name : String)
  | expression
  deriving DecidableEq, Repr

def DefaultNode.value : DefaultNode → DefaultValue
  | declaration d => .declaration d.names.head?
  | identifier name => .identifier name
  | expression => .expression

/-- The forms of an export statement. -/
inductive ExportNode where
  | byDefault (value : DefaultNode)
  | declaration (d : DeclarationNode)
  /-- Names in braces, perhaps from another module. -/
  | clause (specifiers : List SpecifierNode) (source : Option String)
  /-- Everything from another module, perhaps under one name. -/
  | all (name : Option String)
  /-- The export of a value by `=`. -/
  | assignment
  /-- The name under which scripts without imports see the module. -/
  | globalName
  /-- What stands behind `declare`: a declaration, or a block of global ones. -/
  | ambient (declaration : Option DeclarationNode)
  /-- Another name for a module or for a part of a namespace. -/
  | importAlias
  deriving DecidableEq, Repr

def ExportNode.statement : ExportNode → Statement
  | byDefault value => .exportDefault value.value
  | declaration d => .exportDeclaration d.declared
  | clause specifiers source => .exportNames (specifiers.map (·.specifier)) source.isSome
  | all name => .exportAll (name.map unquoted)
  | assignment | globalName | ambient _ | importAlias => .other

def specifierNode? (typed : Bool) (entry : List String) : Option SpecifierNode :=
  (namedImport? typed entry).map fun b => ⟨b.name, b.renamed⟩

def defaultNode (s : Scope) : Reader DefaultNode := do
  gap
  (return .declaration (← declarationNode s .alone)) <|> (do
    let name ← text valueWord?
    if constantWords.contains name then failure
    close s true
    return .identifier name) <|> do
  pass s (Shape.piece (.expression .line))
  close s true
  return .expression

/-- What follows `export` and names things in braces, or everything of another module. -/
def exportClauseNode (s : Scope) : Reader ExportNode := do
  (do only s.language.typed (keyword "type"); gap) <|> pure ()
  (do
    symbol "*"
    let name ← (do
        gap
        keyword "as"
        gap
        return some (← text word? <|> text string?)) <|> pure none
    let _ ← fromClause
    let _ ← attributes s
    close s false
    return .all name) <|> do
  let entries ← braced s
  let specifiers ← (entries.mapM (specifierNode? s.language.typed) : Option _)
  let source ← (do
      let source ← fromClause
      let _ ← attributes s
      return some source) <|> pure none
  close s false
  return .clause specifiers source

/-- The declaration behind `declare`. -/
def ambientNode (s : Scope) : Reader DeclarationNode := do
  pass s (Shape.kw "declare" ++ Shape.linkName s.language .line)
  declarationNode s .exported

def exportNode (s : Scope) : Reader ExportNode := do
  pass s (.many (Shape.piece .decorator ++ Shape.gap))
  keyword "export"
  link s true
  (do
    keyword "default"
    return .byDefault (← defaultNode s)) <|>
  exportClauseNode s <|>
  (return .declaration (← declarationNode s .exported)) <|>
  only s.language.typed ((do
    symbol "="
    pass s (Shape.piece (.expression .line))
    close s true
    return .assignment) <|> (do
    keyword "as"
    pass s (Shape.gap ++ Shape.kw "namespace" ++ Shape.gap ++ Shape.word)
    close s false
    return .globalName) <|> (do
    let declaration ← peek (ambientNode s)
    pass s (Shape.kw "declare" ++ Shape.linkName s.language .line ++
      (Shape.kw "global" ++ Shape.gap ++ Shape.piece .block <|> Shape.piece .statement))
    return .ambient declaration) <|> do
    keyword "import"
    gap
    (fun _ => .importAlias) <$> importAlias s)

section

variable (s : Scope)

theorem exportSpecifier?_nodes (typed : Bool) (entry : List String) :
    exportSpecifier? typed entry = (specifierNode? typed entry).map (·.specifier) := by
  unfold exportSpecifier? specifierNode?
  rw [Option.map_map]
  congr 1
  funext b
  rcases b with ⟨name, renamed, isType⟩
  cases renamed <;> rfl

theorem defaultValue_nodes : defaultValue s = DefaultNode.value <$> defaultNode s := by
  simp only [defaultValue, declared_nodes, bind_map_left]
  simp only [defaultNode, map_bind, map_or, map_pure, DefaultNode.value,
    DeclarationNode.declared, apply_ite (f := (DefaultNode.value <$> ·))]

theorem exportClause_nodes : exportClause s = ExportNode.statement <$> exportClauseNode s := by
  have name : ((do
        gap
        keyword "as"
        gap
        return some (unquoted (← text word? <|> text string?))) <|> pure none :
          Reader (Option String)) =
      Option.map unquoted <$> ((do
        gap
        keyword "as"
        gap
        return some (← text word? <|> text string?)) <|> pure none) := by
    simp only [map_or, map_bind, map_pure, Option.map_some, Option.map_none]
  have specifiers (entries : List (List String)) :
      entries.mapM (exportSpecifier? s.language.typed) =
        (entries.mapM (specifierNode? s.language.typed)).map (List.map (·.specifier)) := by
    rw [← mapM_map_option]
    exact congrArg (List.mapM · entries) (funext (exportSpecifier?_nodes _))
  simp only [exportClause, name, specifiers, ← map_lift, bind_map_left]
  simp only [exportClauseNode, map_bind, map_or, map_pure, ExportNode.statement]

theorem exportStatement_nodes :
    exportStatement s = ExportNode.statement <$> exportNode s := by
  have other : ExportNode.statement <$> (fun _ => ExportNode.importAlias) <$> importAlias s =
      importAlias s := by
    rw [← comp_map]
    have answers : Answers (importAlias s) (· = .other) :=
      importAlias_answers (t := (· = .other)) rfl s
    exact map_eq_self answers fun _ same => same.symm
  simp only [exportStatement, defaultValue_nodes, exportClause_nodes, declared_nodes,
    bind_map_left]
  simp only [exportNode, map_bind, map_or, map_pure, map_only, other, ExportNode.statement,
    peek_bind]

end

/-! ## Statements -/

inductive StatementNode where
  | hashBang
  | directive
  /-- An import; what gives another name to a module binds nothing. -/
  | importing (declaration : Option Import)
  | exporting (e : ExportNode)
  | declaration (d : DeclarationNode)
  | other
  deriving DecidableEq, Repr

def StatementNode.statement : StatementNode → Statement
  | hashBang => .hashBang
  | directive => .directive
  | importing (some d) => .importing d
  | importing none => .other
  | exporting e => e.statement
  | declaration d => if d.kind.countsAlone then .declaration d.declared else .other
  | other => .other

/-- A top-level node and where it stands. -/
structure TopLevel where
  node : StatementNode
  span : Span
  deriving DecidableEq, Repr

def TopLevel.item (t : TopLevel) : Item :=
  ⟨t.node.statement, t.span⟩

/-- The node of a statement that begins like an import. -/
def importNode : Statement → StatementNode
  | .importing d => .importing (some d)
  | _ => .importing none

/-- A statement that neither imports nor exports. -/
def plainNode (s : Scope) : Reader StatementNode :=
  (return .declaration (← declarationNode s .alone)) <|> (do
    skip string?
    close s true
    return .directive) <|> do
  pass s ((.absent (Shape.anyKw ["import", "export"]) ++ Shape.piece .statement) <|>
    (Shape.piece (.expression .line) ++ Shape.close s.language))
  return .other

def nodeHere (s : Scope) : Reader StatementNode :=
  importNode <$> importStatement s <|> .exporting <$> exportNode s <|> plainNode s

/-- The nodes of a text from a place on. The argument bounds their number. -/
def nodesFrom (s : Scope) : Nat → Cursor → Option (List TopLevel)
  | 0, _ => none
  | n + 1, c =>
    let start := c.skipGap
    if start.rest.isEmpty then some []
    else match nodeHere s start with
      | none => none
      | some (node, stop) =>
        if start.offset < stop.offset then
          (nodesFrom s n stop).map (⟨node, ⟨start.offset, stop.offset⟩⟩ :: ·)
        else none

/-- The top-level nodes of a module; nothing when it is broken. -/
def nodes? (language : Language) (text : List Char) : Option (List TopLevel) :=
  let s := Scope.of language text
  let start := (Cursor.start text).skipGap
  match start.token? hashBang? with
  | some stop =>
    (nodesFrom s s.fuel stop).map (⟨.hashBang, ⟨start.offset, stop.offset⟩⟩ :: ·)
  | none => nodesFrom s s.fuel start

section

variable (s : Scope)

theorem plainStatement_nodes :
    plainStatement s = StatementNode.statement <$> plainNode s := by
  simp only [plainStatement, declared_nodes, bind_map_left]
  simp only [plainNode, map_bind, map_or, map_pure, StatementNode.statement]
  rfl

theorem statementHere_nodes :
    statementHere s = StatementNode.statement <$> nodeHere s := by
  have imports : StatementNode.statement <$> importNode <$> importStatement s =
      importStatement s := by
    rw [← comp_map]
    have known : Answers (importStatement s) fun x => (importNode x).statement = x :=
      importStatement_answers rfl trivial (.anything _) fun _ _ _ _ _ _ => rfl
    exact map_eq_self known fun _ same => same
  have exports : StatementNode.statement <$> StatementNode.exporting <$> exportNode s =
      exportStatement s := by
    rw [exportStatement_nodes, ← comp_map]
    rfl
  rw [statementHere, nodeHere, map_or, map_or, imports, exports, ← plainStatement_nodes]

theorem itemsFrom_nodes (n : Nat) (c : Cursor) :
    itemsFrom s n c = (nodesFrom s n c).map (List.map TopLevel.item) := by
  induction n generalizing c with
  | zero => rfl
  | succ n ih =>
    simp only [itemsFrom, nodesFrom, statementHere_nodes, map_apply]
    split
    · rfl
    · cases nodeHere s c.skipGap with
      | none => rfl
      | some read =>
        simp only [Option.map_some]
        split
        · rw [ih, Option.map_map, Option.map_map]
          rfl
        · rfl

end

/-- The statements of a module are those of its nodes. -/
theorem items?_nodes (l : Language) (text : List Char) :
    items? l text = (nodes? l text).map (List.map TopLevel.item) := by
  simp only [items?, nodes?, itemsFrom_nodes]
  cases (Cursor.start text).skipGap.token? hashBang? with
  | none => rfl
  | some stop =>
    simp only [Option.map_map]
    rfl

end ModuleRepair.Script
