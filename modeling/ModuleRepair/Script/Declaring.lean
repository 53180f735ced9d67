import ModuleRepair.Script.Reader
import ModuleRepair.Script.Statement

/-!
# Declarations

A declaration that ends with a body is followed by the comments that belong to it; any other one by
the end of the statement.
-/
namespace ModuleRepair.Script

open ModuleRepair.Text Reader

/-- Where a declaration stands: on its own or as a default export, or behind `export`. -/
inductive Standing where
  | alone
  | exported
  deriving DecidableEq, Repr

/-- Passes over the comments that belong to a body. -/
def trail (s : Scope) (standing : Standing) : Reader Unit :=
  let operand := !s.language.typed && standing == .alone
  skip fun rest => some (trailLength ⟨s.language.typed, operand, false⟩ rest)

/-- A name behind a gap. -/
def nameHere : Reader String := do
  gap
  text word?

/-- The function behind its decorations: with its body, or only its signature. -/
def functionDeclared (s : Scope) (standing : Standing) :
    Reader (DeclarationKind × List String) := do
  (do keyword "async"; link s true) <|> pure ()
  keyword "function"
  let generator ← (do gap; symbol "*"; return true) <|> pure false
  let name ← nameHere
  pass s (Shape.gap ++ signature s.language .line)
  (do
    pass s (Shape.gap ++ Shape.piece .block)
    trail s standing
    return (if generator then .generatorFunction else .function, [name])) <|> do
  only s.language.typed (skip (closeLength ⟨true, false, true⟩))
  return (.functionSignature, [name])

/-- The class behind its decorations. -/
def classDeclared (s : Scope) (standing : Standing) : Reader (DeclarationKind × List String) := do
  pass s (.many (Shape.piece .decorator ++ Shape.gap))
  let abstract ← (do
      only s.language.typed (keyword "abstract")
      link s false
      return true) <|> pure false
  keyword "class"
  gap
  pass s (.absent (Shape.anyKw ["extends", "implements"]))
  let name ← text word?
  pass s (Shape.piece .classTail)
  if abstract then return (.abstractClass, [name])
  trail s standing
  return (.plainClass, [name])

/-- The variables behind their keyword: their names, and whether the last one has a value. The
argument bounds their number. -/
def readDeclarators (s : Scope) : Nat → Reader (List String × Bool)
  | 0 => failure
  | n + 1 => do
    gap
    let name ← (return [← text word?]) <|> (do pass s (Shape.piece .binding); return [])
    pass s (Pattern.maybe (Pattern.only s.language.typed
      (Shape.linkName s.language .line ++ Shape.sym "!" ++ .absent (Shape.sym "="))))
    pass s ( Shape.annotation s.language .line)
    let valued ← (do
        gap
        symbol "="
        pass s (Shape.piece (.assignment .line))
        return true) <|> pure false
    (do
      link s valued
      symbol ","
      let (names, valued) ← readDeclarators s n
      return (name ++ names, valued)) <|> return (name, valued)

def variableDeclared (s : Scope) : Reader (DeclarationKind × List String) := do
  let kind ← (do keyword "const"; return .blockVariable) <|>
    (do keyword "var"; return .functionVariable) <|>
    (do keyword "let"; link s true; return .blockVariable)
  let (names, valued) ← readDeclarators s s.fuel
  close s valued
  return (kind, names)

/-- A declaration that exists only in languages with types. -/
def typedDeclared (s : Scope) (standing : Standing) : Reader (DeclarationKind × List String) :=
    only s.language.typed ((do
    keyword "interface"
    let name ← nameHere
    pass s (Shape.gap ++ Pattern.maybe (Shape.piece .typeParameters ++ Shape.gap) ++
      Pattern.maybe (Shape.kw "extends" ++ Shape.gap ++ Shape.typeHere ++
        .many (Shape.gap ++ Shape.sym "," ++ Shape.gap ++ Shape.typeHere) ++ Shape.gap) ++
      Shape.piece .objectType)
    return (.interface, [name])) <|> (do
    keyword "type"
    link s false
    let name ← text word?
    pass s (Shape.gap ++ Pattern.maybe (Shape.piece .typeParameters ++ Shape.gap) ++
      Shape.sym "=" ++ Shape.gap ++ Shape.piece (.typeAt .line))
    close s false
    return (.typeAlias, [name])) <|> (do
    (do keyword "const"; gap) <|> pure ()
    keyword "enum"
    let name ← nameHere
    pass s (Shape.gap ++ Shape.piece .enumBody)
    return (.enumeration, [name])) <|> (do
    keyword "namespace"
    link s false
    let name ← slice s dottedName
    pass s (Shape.gap ++ Shape.piece .block)
    trail s standing
    return (.namespaceBlock, [name])) <|> do
    keyword "module"
    link s false
    let names ← (do skip string?; return []) <|> (return [← slice s dottedName])
    (do pass s (Shape.gap ++ Shape.piece .block); trail s standing) <|> close s false
    return (.moduleBlock, names))

/-- A declaration of any kind. -/
def declared (s : Scope) (standing : Standing) : Reader Declared := do
  let start ← offset
  let (kind, names) ← functionDeclared s standing <|> typedDeclared s standing <|>
    variableDeclared s <|> classDeclared s standing
  return ⟨kind, names, ⟨start, ← offset⟩⟩

end ModuleRepair.Script
