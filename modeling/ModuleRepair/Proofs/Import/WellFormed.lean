import ModuleRepair.Import.Render
import ModuleRepair.Proofs.Script.Words

/-!
# Well-formed import declarations

A declaration is well-formed when its names are plain ones, its specifier needs no escapes between
its quotes, and it has one of the forms of an import clause. Whether it can be read back does not
depend on what its names mean: they only have to be words (`Import.Spelled`).
-/
namespace ModuleRepair

open ModuleRepair.Text ModuleRepair.Script

/-- The keywords and contextual keywords of scripts. -/
def meaningfulWords : List String := [
  "break", "case", "catch", "class", "const", "continue", "debugger", "default", "delete", "do",
  "else", "enum", "export", "extends", "false", "finally", "for", "function", "if", "import", "in",
  "instanceof", "new", "null", "return", "super", "switch", "this", "throw", "true", "try",
  "typeof", "var", "void", "while", "with", "implements", "interface", "let", "package", "private",
  "protected", "public", "static", "yield", "abstract", "accessor", "any", "as", "assert",
  "asserts", "async", "await", "bigint", "boolean", "constructor", "declare", "defer", "from",
  "get", "global", "infer", "intrinsic", "is", "keyof", "module", "namespace", "never", "number",
  "object", "of", "out", "override", "readonly", "require", "satisfies", "set", "string", "symbol",
  "type", "undefined", "unique", "unknown", "using"]

/-- A letter, digit or sign of an ASCII identifier. -/
def isPlainLetter (c : Char) : Bool :=
  c.isAlphanum || c == '_' || c == '$'

/-- An ASCII identifier that is neither a keyword nor a contextual keyword. -/
def isPlainName (name : String) : Bool :=
  name.toList.all isPlainLetter && name.toList.head?.any (!Char.isDigit ·) &&
    !meaningfulWords.contains name

/-- A binding between braces of plain names. It is renamed only to another name. -/
structure NamedImport.WellFormed (b : NamedImport) : Prop where
  name : isPlainName b.name = true
  renamed : ∀ a ∈ b.renamed, isPlainName a = true ∧ a ≠ b.name

/-- A declaration that an import statement can stand for. -/
structure Import.WellFormed (d : Import) : Prop where
  quote : d.quote = "\"" ∨ d.quote = "\x27"
  specifier : ∀ c ∈ d.specifier.toList, c ∉ d.quote.toList ∧ c ≠ '\\' ∧ c ≠ '\n' ∧ c ≠ '\r'
  defaultName : ∀ name ∈ d.defaultName, isPlainName name = true
  namespaceName : ∀ name ∈ d.namespaceName, isPlainName name = true
  named : ∀ b ∈ d.named, b.WellFormed
  /-- A namespace takes the place of the braces. -/
  clause : d.namespaceName = none ∨ d.named = []
  /-- Types are imported under some name. -/
  typeOnly : d.typeOnly = true → d.localNames ≠ []
  attributes : d.attributes = none

/-- A binding between braces of words. It is renamed only to another one. -/
structure NamedImport.Spelled (b : NamedImport) : Prop where
  name : spellsWord b.name.toList = true
  renamed : ∀ a ∈ b.renamed, spellsWord a.toList = true ∧ a ≠ b.name

/-- A declaration that can be written as an import statement of words. -/
structure Import.Spelled (d : Import) : Prop where
  quote : d.quote = "\"" ∨ d.quote = "\x27"
  specifier : ∀ c ∈ d.specifier.toList, c ∉ d.quote.toList ∧ c ≠ '\\' ∧ c ≠ '\n' ∧ c ≠ '\r'
  defaultName : ∀ name ∈ d.defaultName, spellsWord name.toList = true
  namespaceName : ∀ name ∈ d.namespaceName, spellsWord name.toList = true
  named : ∀ b ∈ d.named, b.Spelled
  clause : d.namespaceName = none ∨ d.named = []
  typeOnly : d.typeOnly = true → d.localNames ≠ []
  attributes : d.attributes = none

/-- Nothing in the declaration is marked as a type. -/
def Import.Untyped (d : Import) : Prop :=
  d.typeOnly = false ∧ ∀ b ∈ d.named, b.isType = false

instance (b : NamedImport) : Decidable b.WellFormed :=
  decidable_of_iff (isPlainName b.name = true ∧
      ∀ a ∈ b.renamed, isPlainName a = true ∧ a ≠ b.name)
    ⟨fun ⟨name, renamed⟩ => ⟨name, renamed⟩, fun h => ⟨h.name, h.renamed⟩⟩

-- The characters of a specifier are gone through one by one, not all characters there are.
instance (d : Import) : Decidable d.WellFormed :=
  haveI : Decidable (∀ c ∈ d.specifier.toList,
      c ∉ d.quote.toList ∧ c ≠ '\\' ∧ c ≠ '\n' ∧ c ≠ '\r') := List.decidableBAll _ _
  decidable_of_iff ((d.quote = "\"" ∨ d.quote = "\x27") ∧
      (∀ c ∈ d.specifier.toList, c ∉ d.quote.toList ∧ c ≠ '\\' ∧ c ≠ '\n' ∧ c ≠ '\r') ∧
      (∀ name ∈ d.defaultName, isPlainName name = true) ∧
      (∀ name ∈ d.namespaceName, isPlainName name = true) ∧ (∀ b ∈ d.named, b.WellFormed) ∧
      (d.namespaceName = none ∨ d.named = []) ∧ (d.typeOnly = true → d.localNames ≠ []) ∧
      d.attributes = none)
    ⟨fun ⟨quote, specifier, defaultName, namespaceName, named, clause, typeOnly, attributes⟩ =>
        { quote, specifier, defaultName, namespaceName, named, clause, typeOnly, attributes },
      fun h => ⟨h.quote, h.specifier, h.defaultName, h.namespaceName, h.named, h.clause,
        h.typeOnly, h.attributes⟩⟩

instance (d : Import) : Decidable d.Untyped :=
  inferInstanceAs (Decidable (d.typeOnly = false ∧ ∀ b ∈ d.named, b.isType = false))

theorem toNat_lt_of_plain {c : Char} (h : isPlainLetter c = true) : c.toNat < 0x80 := by
  simp only [isPlainLetter, Bool.or_eq_true, beq_iff_eq] at h
  rcases h with (h | rfl) | rfl
  · exact Nat.lt_of_le_of_lt (toNat_of_isAlphanum h).2 (by decide)
  · decide
  · decide

theorem isIdentifierPart_of_plain {c : Char} (h : isPlainLetter c = true) :
    isIdentifierPart c = true := by
  have ascii := toNat_lt_of_plain h
  simp only [isPlainLetter, Bool.or_eq_true] at h
  simp only [isIdentifierPart, ascii, if_true, Bool.or_eq_true]
  exact .inl h

theorem spellsWord_of_plain {name : String} (h : isPlainName name = true) :
    spellsWord name.toList = true := by
  simp only [isPlainName, Bool.and_eq_true, List.all_eq_true] at h
  simp only [spellsWord, Bool.and_eq_true, List.all_eq_true]
  exact ⟨fun c hc => isIdentifierPart_of_plain (h.1.1 c hc), h.1.2⟩

theorem NamedImport.WellFormed.spelled {b : NamedImport} (h : b.WellFormed) : b.Spelled where
  name := spellsWord_of_plain h.name
  renamed a there := ⟨spellsWord_of_plain (h.renamed a there).1, (h.renamed a there).2⟩

theorem Import.WellFormed.spelled {d : Import} (h : d.WellFormed) : d.Spelled where
  quote := h.quote
  specifier := h.specifier
  defaultName name there := spellsWord_of_plain (h.defaultName name there)
  namespaceName name there := spellsWord_of_plain (h.namespaceName name there)
  named b there := (h.named b there).spelled
  clause := h.clause
  typeOnly := h.typeOnly
  attributes := h.attributes

theorem ne_empty_of_spelled {name : String} (h : spellsWord name.toList = true) : name ≠ "" := by
  rintro rfl
  cases h

theorem ne_empty_of_plain {name : String} (h : isPlainName name = true) : name ≠ "" :=
  ne_empty_of_spelled (spellsWord_of_plain h)

theorem given_of_spelled {name : Option String}
    (h : ∀ s, name = some s → spellsWord s.toList = true) : given name = name := by
  cases name with
  | none => rfl
  | some s => exact given_some (ne_empty_of_spelled (h s rfl))

theorem given_of_plain {name : Option String}
    (h : ∀ s, name = some s → isPlainName s = true) : given name = name :=
  given_of_spelled fun s there => spellsWord_of_plain (h s there)

end ModuleRepair
