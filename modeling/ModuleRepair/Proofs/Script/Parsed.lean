import ModuleRepair.Proofs.Script.Reading

/-!
# What a read import is like

Every import that is read from a text has one of the forms of an import clause: its names are there,
and a namespace stands in place of the braces (`parsed_of_outline?`). The names between the braces
are there as well (`localName_of_outline?`). Whatever holds of all clauses holds of all imports of a
text (`imports_of_outline?`).
-/
namespace ModuleRepair

open ModuleRepair.Text ModuleRepair.Script

/-- A declaration of one of the forms of an import clause. -/
structure Import.Parsed (d : Import) : Prop where
  defaultName : d.defaultName ≠ some ""
  namespaceName : d.namespaceName ≠ some ""
  clause : d.namespaceName = none ∨ d.named = []

theorem Import.Parsed.given_defaultName {d : Import} (h : d.Parsed) :
    given d.defaultName = d.defaultName := by
  cases hd : d.defaultName with
  | none => rfl
  | some name => exact given_some fun empty => h.defaultName (by rw [hd, empty])

namespace Script

variable {α β : Type}

/-- Whatever the reader answers has a property. -/
def Answers (r : Reader α) (p : α → Prop) : Prop :=
  ∀ c a d, r c = some (a, d) → p a

namespace Answers

variable {r q : Reader α} {p : α → Prop}

theorem bind {f : α → Reader β} {t : β → Prop} (first : Answers r p)
    (second : ∀ a, p a → Answers (f a) t) : Answers (r >>= f) t := by
  intro c b d h
  rw [Reader.bind_apply] at h
  cases read : r c with
  | none => simp [read] at h
  | some pair =>
    have here := first c pair.1 pair.2 read
    exact second pair.1 here pair.2 b d (by simpa [read] using h)

theorem anything (r : Reader α) : Answers r fun _ => True :=
  fun _ _ _ _ => trivial

/-- A step whose answer does not matter. -/
theorem after {f : α → Reader β} {t : β → Prop} (second : ∀ a, Answers (f a) t) :
    Answers (r >>= f) t :=
  (anything r).bind fun a _ => second a

theorem pure {a : α} (h : p a) : Answers (Pure.pure a : Reader α) p := by
  rintro c b d ⟨⟩
  exact h

theorem or (first : Answers r p) (second : Answers q p) : Answers (r <|> q) p := by
  intro c a d h
  change (r c <|> q c) = _ at h
  cases read : r c with
  | none => exact second c a d (by simpa [read] using h)
  | some pair => exact first c a d (by simpa [read] using h)

theorem only {holds : Bool} (h : Answers r p) : Answers (Reader.only holds r) p := by
  cases holds with
  | false => exact fun _ _ _ => nofun
  | true => exact h

end Answers

theorem word?_ne_zero {s : List Char} (h : word? s = some 0) : False := by
  unfold word? at h
  split at h
  · cases h
  · split at h
    · cases h
    · split at h
      · cases h
      · next nonzero => exact nonzero (Option.some.inj h)

/-- The text of a token has letters. -/
theorem text_answers {measure : List Char → Option Nat} (nothing : measure [] = none)
    (positive : ∀ s, measure s ≠ some 0) : Answers (Reader.text measure) (· ≠ "") := by
  intro c a d h
  simp only [Reader.text, Option.map_eq_some_iff, Prod.mk.injEq] at h
  obtain ⟨n, read, rfl, -⟩ := h
  intro empty
  rw [← String.toList_inj, String.toList_ofList] at empty
  rcases List.take_eq_nil_iff.mp empty with none | none
  · exact positive _ (none ▸ read)
  · rw [none, nothing] at read
    cases read

theorem word_answers : Answers (Reader.text word?) (· ≠ "") :=
  text_answers rfl fun _ => word?_ne_zero

/-! ## Clauses -/

/-- A default binding, a namespace and named bindings, as they are read. -/
abbrev ReadClause := Option String × Option String × List NamedImport

/-- The parts of a clause. -/
def IsClause (clause : ReadClause) : Prop :=
  clause.1 ≠ some "" ∧ clause.2.1 ≠ some "" ∧ (clause.2.1 = none ∨ clause.2.2 = [])

theorem importedBindings_answers (s : Scope) : Answers (importedBindings s) fun bindings =>
    bindings.1 ≠ some "" ∧ (bindings.1 = none ∨ bindings.2 = []) := by
  refine .or ?_ ?_
  · refine .after fun _ => .after fun _ => .after fun _ => .after fun _ => ?_
    exact word_answers.bind fun name h => .pure ⟨by simpa using h, .inr rfl⟩
  · exact .after fun _ => .after fun _ => .pure ⟨nofun, .inl rfl⟩

theorem importClause_answers (s : Scope) : Answers (importClause s) IsClause := by
  have bindings := importedBindings_answers s
  refine .or (bindings.bind fun b h => .pure ⟨nofun, h⟩) ?_
  refine word_answers.bind fun name h => ?_
  have there : some name ≠ some "" := by simpa using h
  refine .or ?_ (.pure ⟨there, nofun, .inl rfl⟩)
  exact .after fun _ => .after fun _ => .after fun _ => bindings.bind fun b h => .pure ⟨there, h⟩

/-! ## Statements -/

/-- If a statement imports something, the import has a property. -/
def Imports (p : Import → Prop) : Statement → Prop
  | .importing d => p d
  | _ => True

/-- What is true of the imports that are made of clauses of one kind. -/
def OfClauses (kind : ReadClause → Prop) (p : Import → Prop) : Prop :=
  ∀ specifier typeOnly clause attributes semicolon, kind clause →
    p (importFrom specifier typeOnly clause attributes semicolon)

/-- A property of all statements that export something, and of those that say nothing. -/
structure OfExports (t : Statement → Prop) : Prop where
  other : t .other
  exportDefault : ∀ value, t (.exportDefault value)
  exportDeclaration : ∀ declared, t (.exportDeclaration declared)
  exportNames : ∀ specifiers reexport, t (.exportNames specifiers reexport)
  exportAll : ∀ name, t (.exportAll name)

variable {p : Import → Prop} {kind : ReadClause → Prop} {t : Statement → Prop}

theorem OfExports.imports : OfExports (Imports p) :=
  ⟨trivial, fun _ => trivial, fun _ => trivial, fun _ _ => trivial, fun _ => trivial⟩

theorem importAlias_answers (other : t .other) (s : Scope) : Answers (importAlias s) t :=
  .only (.after fun _ => .after fun _ => .after fun _ => .pure other)

theorem importStatement_answers {s : Scope} (other : t .other) (bare : kind (none, none, []))
    (clauses : Answers (importClause s) kind) (fits : OfClauses kind fun d => t (.importing d)) :
    Answers (importStatement s) t := by
  refine .after fun start => .after fun _ => .after fun _ => .or (importAlias_answers other s) ?_
  refine Answers.bind (p := fun parts => kind parts.2.2) ?_ ?_
  · refine .or (.after fun _ => .pure bare) ?_
    exact .after fun _ => clauses.bind fun clause h => .after fun _ => .pure h
  · rintro ⟨specifier, typeOnly, clause⟩ h
    exact .after fun attributes => .after fun _ => .after fun semicolon =>
      .pure (fits specifier typeOnly clause attributes semicolon h)

theorem exportClause_answers (h : OfExports t) (s : Scope) : Answers (exportClause s) t := by
  refine .after fun _ => .or ?_ ?_
  · exact .after fun _ => .after fun name => .after fun _ => .after fun _ => .after fun _ =>
      .pure (h.exportAll name)
  · exact .after fun _ => .after fun specifiers => .after fun _ => .after fun _ =>
      .pure (h.exportNames specifiers _)

theorem exportStatement_answers (h : OfExports t) (s : Scope) :
    Answers (exportStatement s) t := by
  refine .after fun _ => .after fun _ => .after fun _ =>
    .or ?_ (.or (exportClause_answers h s) ?_)
  · exact .after fun _ => .after fun value => .pure (h.exportDefault value)
  · refine .or (.after fun d => .pure (h.exportDeclaration d)) (.only (.or ?_ (.or ?_ (.or ?_ ?_))))
    · exact .after fun _ => .after fun _ => .after fun _ => .pure h.other
    · exact .after fun _ => .after fun _ => .after fun _ => .pure h.other
    · exact .after fun _ => .pure h.other
    · exact .after fun _ => .after fun _ => importAlias_answers h.other s

theorem plainStatement_answers (s : Scope) : Answers (plainStatement s) (Imports p) := by
  refine .or (.after fun d => .pure ?_) (.or ?_ ?_)
  · split <;> trivial
  · exact .after fun _ => .after fun _ => .pure trivial
  · exact .after fun _ => .pure trivial

theorem imports_of_itemsFrom {s : Scope} (statements : Answers (importStatement s) (Imports p))
    {n : Nat} {c : Cursor} {items : List Item} (h : itemsFrom s n c = some items) :
    ∀ item ∈ items, Imports p item.statement := by
  induction n generalizing c items with
  | zero => cases h
  | succ n ih =>
    simp only [itemsFrom] at h
    split at h
    · simp [← Option.some.inj h]
    · split at h
      · cases h
      · next statement stop read =>
        have here : Answers (statementHere s) (Imports p) :=
          statements.or ((exportStatement_answers .imports s).or (plainStatement_answers s))
        split at h
        · obtain ⟨rest, following, rfl⟩ := Option.map_eq_some_iff.mp h
          intro item there
          rcases List.mem_cons.mp there with rfl | there
          · exact here _ _ _ read
          · exact ih following item there
        · cases h

/-- What is true of all clauses that are read, and does not depend on the place of an import, is
true of all imports that are read. -/
theorem imports_of_outline? (bare : kind (none, none, []))
    (clauses : ∀ s, Answers (importClause s) kind) (fits : OfClauses kind p)
    (moved : ∀ (d : Import) span, p d → p { d with span }) {l : Language} {text : String}
    {o : Outline} (h : outline? l text = some o) : ∀ d ∈ o.imports, p d := by
  obtain ⟨items, read, rfl⟩ := Option.map_eq_some_iff.mp h
  have following {s : Scope} {n : Nat} {c : Cursor} {items : List Item}
      (h : itemsFrom s n c = some items) : ∀ item ∈ items, Imports p item.statement :=
    imports_of_itemsFrom (importStatement_answers trivial bare (clauses s) fits) h
  have statements : ∀ item ∈ items, Imports p item.statement := by
    simp only [items?] at read
    split at read
    · obtain ⟨rest, behind, rfl⟩ := Option.map_eq_some_iff.mp read
      intro item there
      rcases List.mem_cons.mp there with rfl | there
      · trivial
      · exact following behind item there
    · exact following read
  intro d hd
  obtain ⟨⟨statement, span⟩, there, imported⟩ := List.mem_filterMap.mp hd
  have holds := statements _ there
  cases statement with
  | importing declaration =>
    obtain rfl := Option.some.inj imported
    exact moved declaration span holds
  | _ => cases imported

/-- Every import that is read has one of the forms of a clause. -/
theorem parsed_of_outline? {l : Language} {text : String} {o : Outline}
    (h : outline? l text = some o) : ∀ d ∈ o.imports, d.Parsed :=
  imports_of_outline? ⟨nofun, nofun, .inl rfl⟩ importClause_answers
    (fun _ _ _ _ _ ⟨default, all, form⟩ => ⟨default, all, form⟩)
    (fun _ _ parsed => ⟨parsed.defaultName, parsed.namespaceName, parsed.clause⟩) h

/-! ## Names between braces -/

theorem lt_of_stringScan {quote : Char} {seen n : Nat} {s : List Char}
    (h : stringScan quote seen s = some n) : seen < n := by
  fun_induction stringScan quote seen s <;> grind

theorem string?_ne_zero {s : List Char} (h : string? s = some 0) : False := by
  cases s with
  | nil => cases h
  | cons c rest =>
    simp only [string?] at h
    split at h
    · exact absurd (lt_of_stringScan h) (Nat.not_lt_zero 1)
    · cases h

theorem string_answers : Answers (Reader.text string?) (· ≠ "") :=
  text_answers rfl fun _ => string?_ne_zero

theorem Answers.lift {value : Option α} {p : α → Prop} (h : ∀ a, value = some a → p a) :
    Answers (liftM value : Reader α) p := by
  intro c a d read
  cases value with
  | none => cases read
  | some b =>
    obtain ⟨rfl, -⟩ := Prod.mk.inj (Option.some.inj read)
    exact h b rfl

theorem entryWords_answers (n : Nat) : Answers (entryWords n) fun words => "" ∉ words := by
  induction n with
  | zero => exact .pure List.not_mem_nil
  | succ n ih =>
    refine .or (.after fun _ => ?_) (.pure List.not_mem_nil)
    refine (word_answers.or string_answers).bind fun w h => ih.bind fun words rest => .pure ?_
    simp [Ne.symm h, rest]

theorem entries_answers (n : Nat) :
    Answers (entries n) fun entries => ∀ words ∈ entries, "" ∉ words := by
  induction n with
  | zero => exact fun _ _ _ => nofun
  | succ n ih =>
    refine .or (.after fun _ => .after fun _ => .pure nofun) ?_
    refine (entryWords_answers 4).bind fun words h => .after fun _ => .or ?_ ?_
    · exact .after fun _ => ih.bind fun entries rest => .pure (List.forall_mem_cons.mpr ⟨h, rest⟩)
    · exact .after fun _ => .pure (List.forall_mem_singleton.mpr h)

/-- A binding of words has a local name. -/
theorem localName_ne_empty {typed : Bool} {words : List String} {b : NamedImport}
    (h : namedImport? typed words = some b) (letters : "" ∉ words) : b.localName ≠ "" := by
  unfold namedImport? at h
  split at h <;> grind [NamedImport.localName, given]

theorem localName_of_mapM {typed : Bool} {entries : List (List String)} {named : List NamedImport}
    (h : entries.mapM (namedImport? typed) = some named)
    (letters : ∀ words ∈ entries, "" ∉ words) : ∀ b ∈ named, b.localName ≠ "" := by
  induction entries generalizing named with
  | nil =>
    obtain rfl := Option.some.inj h
    nofun
  | cons words entries ih =>
    rw [List.mapM_cons] at h
    obtain ⟨b, first, h⟩ := Option.bind_eq_some_iff.mp h
    obtain ⟨bs, rest, h⟩ := Option.bind_eq_some_iff.mp h
    obtain rfl := Option.some.inj h
    obtain ⟨here, later⟩ := List.forall_mem_cons.mp letters
    exact List.forall_mem_cons.mpr ⟨localName_ne_empty first here, ih rest later⟩

theorem importedBindings_named (s : Scope) : Answers (importedBindings s) fun bindings =>
    ∀ b ∈ bindings.2, b.localName ≠ "" := by
  refine .or ?_ ?_
  · exact .after fun _ => .after fun _ => .after fun _ => .after fun _ => .after fun _ =>
      .pure nofun
  · refine Answers.bind (.after fun _ => entries_answers s.fuel) fun entries letters => ?_
    exact (Answers.lift fun named read => localName_of_mapM read letters).bind fun _ h => .pure h

theorem importClause_named (s : Scope) : Answers (importClause s) fun clause =>
    ∀ b ∈ clause.2.2, b.localName ≠ "" := by
  have bindings := importedBindings_named s
  refine .or (bindings.bind fun b h => .pure h) (.after fun _ => .or ?_ (.pure nofun))
  exact .after fun _ => .after fun _ => .after fun _ => bindings.bind fun b h => .pure h

/-- Whatever stands between the braces of an import that is read has a local name. -/
theorem localName_of_outline? {l : Language} {text : String} {o : Outline}
    (h : outline? l text = some o) : ∀ d ∈ o.imports, ∀ b ∈ d.named, b.localName ≠ "" :=
  imports_of_outline? nofun importClause_named (fun _ _ _ _ _ named => named)
    (fun _ _ named => named) h

end Script

end ModuleRepair
