import ModuleRepair.Import.Named

/-!
# Rewriting import declarations

A named binding can become the default binding and back, and declarations of one specifier can be
merged. Every rewriting leaves the named bindings in order.
-/
namespace ModuleRepair.Import

/-- Adds a named binding. -/
def withNamed (d : Import) (name : String) (localName : Option String) : Import :=
  let localName := (given localName).filter (· ≠ name)
  { d with named := sortNamed (d.named ++ [⟨name, localName, false⟩]) }

/-- Replaces the default binding by a named one for the given export. The local name stays. -/
def defaultToNamed (d : Import) (name : String) : Import :=
  withNamed { d with defaultName := none } name (some ((given d.defaultName).getD name))

/-- Replaces a named binding by a default one of the same local name; nothing when there is no such
binding, or a default binding already. -/
def namedToDefault? (d : Import) (localName : String) : Option Import :=
  if (given d.defaultName).isSome then none
  else (d.named.find? (·.localName = localName)).map fun b =>
    { d with
      defaultName := some b.localName
      named := d.named.eraseP (·.localName = localName) }

/-- One declaration for several ones of one specifier: the first default binding, and all named
bindings. Everything else is taken from the first declaration. -/
def merge (first : Import) (rest : List Import) : Import :=
  let all := first :: rest
  { first with
    defaultName := all.findSome? fun d => given d.defaultName
    named := sortNamed (all.flatMap (·.named)) }

/-- A new declaration with double quotes and a semicolon. -/
def fresh (specifier : String) (defaultName : Option String) (names : List String) : Import :=
  { specifier, defaultName, named := sortNamed (names.map fun name => ⟨name, none, false⟩) }

end ModuleRepair.Import
