import ModuleRepair.Proofs.Script.ImportStatement

/-!
# Reading undoes rendering

A text that holds one rendered import a line is read as a module of just these imports, each in its
place (`outline?_rendered`).
-/
namespace ModuleRepair.Script

open ModuleRepair.Text

/-! ## The text of a declaration -/

theorem render_binding {b : NamedImport} (h : b.Spelled) :
    ' ' :: b.render.toList = spaced (bindingWords b) := by
  obtain ⟨name, renamed, isType⟩ := b
  cases renamed with
  | none => cases isType <;> simp [NamedImport.render, given, spaced, bindingWords]
  | some a =>
    obtain ⟨spelled, other⟩ := h.renamed a rfl
    have there : given (some a) = some a := given_some (ne_empty_of_spelled spelled)
    cases isType <;> simp [NamedImport.render, there, other, spaced, bindingWords]

theorem render_entries {named : List NamedImport} (h : ∀ b ∈ named, b.Spelled)
    (hne : named ≠ []) :
    ' ' :: (String.intercalate ", " (named.map (·.render))).toList ++ [' ', '\x7d'] =
      entriesText (named.map bindingWords) := by
  induction named with
  | nil => exact absurd rfl hne
  | cons b named ih =>
    have here := render_binding (h b List.mem_cons_self)
    cases named with
    | nil => simp [entriesText, ← here]
    | cons next named =>
      have rest := ih (fun b hb => h b (List.mem_cons_of_mem _ hb)) (by simp)
      simp only [List.map_cons] at rest ⊢
      rw [entriesText, ← rest, ← here, String.intercalate_cons_cons]
      · simp
      · simp

/-- The namespace or the braces as the only clause. -/
theorem clauses_bindings {d : Import} (h : d.Spelled) (hb : hasBindings d = true) :
    ∃ clause : String, d.clauses = (given d.defaultName).toList ++ [clause] ∧
      clause.toList = bindingsText d := by
  have namespaces := given_of_spelled h.namespaceName
  cases hn : d.namespaceName with
  | some name =>
    have noNames : d.named = [] := h.clause.resolve_left (by simp [hn])
    rw [hn] at namespaces
    exact ⟨"* as " ++ name, by simp [Import.clauses, namespaces, hn, noNames],
      by simp [bindingsText, hn]⟩
  | none =>
    have names : d.named ≠ [] := by simpa [hasBindings, hn] using hb
    refine ⟨_, by simp [Import.clauses, given, hn, names]; rfl, ?_⟩
    simp [bindingsText, hn, ← render_entries h.named names]

theorem clauses_text {d : Import} (h : d.Spelled) (hc : hasClause d = true) :
    d.clauses ≠ [] ∧ (String.intercalate ", " d.clauses).toList = clauseText d := by
  have defaults := given_of_spelled h.defaultName
  cases hb : hasBindings d with
  | true =>
    obtain ⟨clause, clauses, text⟩ := clauses_bindings h hb
    rw [clauses, defaults, clauseText]
    cases hd : d.defaultName with
    | none => simp [text]
    | some name => simp [text, hb, String.intercalate_cons_cons]
  | false =>
    obtain ⟨name, hd⟩ : ∃ name, d.defaultName = some name := by
      simpa [hasClause, hb, Option.isSome_iff_exists] using hc
    simp only [hasBindings, Bool.or_eq_false_iff, Option.isSome_eq_false_iff,
      Option.isNone_iff_eq_none, Bool.not_eq_false', List.isEmpty_iff] at hb
    rw [hd] at defaults
    have clauses : d.clauses = [name] := by
      simp [Import.clauses, defaults, hd, hb.1, hb.2, given_none]
    simp [clauses, clauseText, hd, hasBindings, hb.1, hb.2]

theorem clauses_eq_nil {d : Import} (hc : hasClause d = false) : d.clauses = [] := by
  simp only [hasClause, hasBindings, Bool.or_eq_false_iff, Option.isSome_eq_false_iff,
    Option.isNone_iff_eq_none, Bool.not_eq_false', List.isEmpty_iff] at hc
  simp [Import.clauses, given, hc.1, hc.2.1, hc.2.2]

theorem render_toList {d : Import} (h : d.Spelled) : d.render.toList = statementText d := by
  have noAttributes : given d.attributes = none := by rw [h.attributes]; rfl
  have quote : d.quote ≠ "" := by rcases h.quote with hq | hq <;> rw [hq] <;> decide
  have specifier : d.quotedSpecifier.toList = quotedText d := by
    simp [Import.quotedSpecifier, quote, quotedText]
  have stop : (if d.semicolon then ";" else "").toList = stopText d := by
    unfold stopText; split <;> rfl
  simp only [Import.render, noAttributes, String.toList_append, stop]
  rw [statementText, bodyText]
  split
  · next empty =>
    have hc : hasClause d = false := by
      by_cases hc : hasClause d = true
      · exact absurd empty (clauses_text h hc).1
      · simpa using hc
    simp [specifier, hc]
  · next some =>
    have hc : hasClause d = true := by
      by_cases hc : hasClause d = true
      · exact hc
      · exact absurd (clauses_eq_nil (by simpa using hc)) some
    rw [if_pos hc]
    unfold markText
    split <;> simp [(clauses_text h hc).2, specifier]

/-! ## The text of a list of declarations -/

/-- Declarations as text, one a line. -/
def linesText (ds : List Import) : List Char :=
  Text.join ['\n'] (ds.map statementText)

/-- Declarations with the places they have when they stand one a line, from an offset on. -/
def placed : Nat → List Import → List Import
  | _, [] => []
  | offset, d :: rest =>
    let stop := offset + byteSize d.render.toList
    { d with span := ⟨offset, stop⟩ } :: placed (stop + 1) rest

theorem linesText_cons (d : Import) (rest : List Import) :
    ∃ more, linesText (d :: rest) = statementText d ++ more ∧
      ((rest = [] ∧ more = []) ∨ (rest ≠ [] ∧ more = '\n' :: linesText rest)) := by
  cases rest with
  | nil => exact ⟨[], by simp [linesText, join_singleton], .inl ⟨rfl, rfl⟩⟩
  | cons next rest =>
    exact ⟨_, by simp [linesText, join_cons_cons]; rfl, .inr ⟨by simp, by simp [linesText]⟩⟩

theorem render_lines {ds : List Import} (h : ∀ d ∈ ds, d.WellFormed) :
    (String.intercalate "\n" (ds.map (·.render))).toList = linesText ds := by
  rw [String.toList_intercalate, List.map_map, linesText, Text.join]
  congr 1
  exact List.map_congr_left fun d hd => render_toList (h d hd).spelled

/-! ## The bounds of a reading -/

theorem length_entriesText (list : List (List (List Char))) :
    list.length ≤ (entriesText list).length := by
  induction list with
  | nil => simp
  | cons entry list ih =>
    cases list with
    | nil => simp [entriesText]
    | cons next list =>
      rw [entriesText]
      · simp only [List.length_cons, List.length_append] at ih ⊢
        omega
      · simp

theorem length_statementText {d : Import} (h : d.Spelled) :
    d.named.length ≤ (statementText d).length := by
  rcases h.clause with hn | empty
  · cases named : d.named with
    | nil => simp
    | cons b rest =>
      have entries := length_entriesText (d.named.map bindingWords)
      have hb : hasBindings d = true := by simp [hasBindings, named]
      have bindings : (entriesText (d.named.map bindingWords)).length ≤ (clauseText d).length := by
        unfold clauseText bindingsText
        split
        · simp [hn, hb]
          omega
        · simp [hn]
      have body : (clauseText d).length ≤ (bodyText d).length := by
        simp only [bodyText, hasClause, hb, Bool.or_true, if_true, List.length_append]
        omega
      have same := congrArg List.length named
      rw [List.length_map] at entries
      simp only [statementText, List.length_append]
      omega
  · simp [empty]

theorem length_linesText (ds : List Import) : ds.length ≤ (linesText ds).length := by
  induction ds with
  | nil => simp
  | cons d rest ih =>
    obtain ⟨more, text, last⟩ := linesText_cons d rest
    have here : 1 ≤ (statementText d).length := by simp [statementText]
    rw [text, List.length_append, List.length_cons]
    rcases last with ⟨rfl, rfl⟩ | ⟨-, rfl⟩
    · simpa using here
    · simp only [List.length_cons]; omega

theorem length_le_linesText {d : Import} {ds : List Import} (hd : d ∈ ds) :
    (statementText d).length ≤ (linesText ds).length := by
  induction ds with
  | nil => simp at hd
  | cons e rest ih =>
    obtain ⟨more, text, last⟩ := linesText_cons e rest
    rw [text, List.length_append]
    rcases List.mem_cons.mp hd with rfl | hd
    · omega
    · rcases last with ⟨rfl, -⟩ | ⟨-, rfl⟩
      · simp at hd
      · have := ih hd
        simp only [List.length_cons]
        omega

/-! ## The statements of a text -/

/-- The statements for declarations that stand one a line. -/
def placedItems (offset : Nat) (ds : List Import) : List Item :=
  (placed offset ds).map fun d => ⟨.importing (unplaced d), d.span⟩

theorem endsLine_of_lines (ds : List Import) (hne : ds ≠ []) :
    endsLine ('\n' :: linesText ds) = true := by
  cases ds with
  | nil => exact absurd rfl hne
  | cons d rest =>
    obtain ⟨more, text, -⟩ := linesText_cons d rest
    rw [text]; rfl

theorem skipGap_lines (offset : Nat) (ds : List Import) :
    Cursor.skipGap ⟨offset, linesText ds⟩ = ⟨offset, linesText ds⟩ := by
  cases ds with
  | nil => rfl
  | cons d rest =>
    obtain ⟨more, text, -⟩ := linesText_cons d rest
    rw [text]
    simp [Cursor.skipGap, gapLength_eq_zero (s := statementText d ++ more) rfl, Cursor.advance]

theorem skipGap_feed (offset : Nat) {ds : List Import} (hne : ds ≠ []) :
    Cursor.skipGap ⟨offset, '\n' :: linesText ds⟩ = ⟨offset + 1, linesText ds⟩ := by
  cases ds with
  | nil => exact absurd rfl hne
  | cons d rest =>
    obtain ⟨more, text, -⟩ := linesText_cons d rest
    have start : startsToken (linesText (d :: rest)) = true := by rw [text]; rfl
    simp [Cursor.skipGap, gapLength_blank (c := '\n') rfl start, Cursor.advance]
    rfl

/-- The statements are read one after the other. The places of those that follow do not depend on
the gap in front of the cursor. -/
theorem itemsFrom_lines {scope : Scope} {ds : List Import} (h : ∀ d ∈ ds, d.WellFormed)
    (typed : scope.language.typed = true ∨ ∀ d ∈ ds, d.Untyped)
    (names : ∀ d ∈ ds, d.named.length ≤ scope.fuel) (fuel : 8 ≤ scope.fuel) {n : Nat}
    (hn : ds.length < n) {c : Cursor} {offset : Nat} (hc : c.skipGap = ⟨offset, linesText ds⟩) :
    itemsFrom scope n c = some (placedItems offset ds) := by
  induction ds generalizing n c offset with
  | nil =>
    obtain ⟨n, rfl⟩ : ∃ m, n = m + 1 := ⟨n - 1, by simp at hn; omega⟩
    simp [itemsFrom, hc, linesText, join_nil, placedItems, placed]
  | cons d rest ih =>
    obtain ⟨n, rfl⟩ : ∃ m, n = m + 1 := ⟨n - 1, by simp at hn; omega⟩
    obtain ⟨more, text, last⟩ := linesText_cons d rest
    have wf := (h d List.mem_cons_self).spelled
    have ends : endsLine more = true := by
      rcases last with ⟨-, rfl⟩ | ⟨hne, rfl⟩
      · rfl
      · exact endsLine_of_lines rest hne
    have statement : statementHere scope ⟨offset, statementText d ++ more⟩ =
        some (.importing (unplaced d), ⟨offset + byteSize (statementText d), more⟩) :=
      Reads.or_left _ (importStatement_reads wf (typed.imp_right fun t => t d List.mem_cons_self)
        (names d List.mem_cons_self) fuel offset (.inr ends))
    have following : itemsFrom scope n ⟨offset + byteSize (statementText d), more⟩ =
        some (placedItems (offset + byteSize (statementText d) + 1) rest) := by
      rcases last with ⟨rfl, rfl⟩ | ⟨hne, rfl⟩
      · obtain ⟨n, rfl⟩ : ∃ m, n = m + 1 := ⟨n - 1, by simp at hn; omega⟩
        rfl
      · exact ih (fun d hd => h d (List.mem_cons_of_mem _ hd))
          (typed.imp_right fun t d hd => t d (List.mem_cons_of_mem _ hd))
          (fun d hd => names d (List.mem_cons_of_mem _ hd)) (by simpa using hn)
          (skipGap_feed _ hne)
    have moves : offset < offset + byteSize (statementText d) := by
      have : 1 ≤ Char.utf8Size 'i' := Char.utf8Size_pos 'i'
      simp only [statementText, List.cons_append, byteSize_cons]
      omega
    have there : (statementText d ++ more).isEmpty = false := rfl
    simp only [itemsFrom, hc, text, there, Bool.false_eq_true, if_false, statement, moves, if_true,
      following, Option.map_some]
    simp [placedItems, placed, render_toList wf, unplaced]

theorem ofItems_placedItems (offset : Nat) (ds : List Import) :
    Outline.ofItems (placedItems offset ds) = { imports := placed offset ds } := by
  have imports : (placedItems offset ds).filterMap Item.import? = placed offset ds := by
    simp [placedItems, List.filterMap_map, Function.comp_def, Item.import?, unplaced]
  have defaults : (placedItems offset ds).findSome? Item.defaultExport? = none := by
    simp [placedItems, List.findSome?_eq_none_iff, Item.defaultExport?]
  have names : (placedItems offset ds).flatMap Item.namedExports = [] := by
    simp [placedItems, List.flatMap_eq_nil_iff, Item.namedExports]
  have declarations : (placedItems offset ds).flatMap Item.declarations = [] := by
    simp [placedItems, List.flatMap_eq_nil_iff, Item.declarations]
  have prologue : (placedItems offset ds).takeWhile Item.inPrologue = [] := by
    cases ds with
    | nil => rfl
    | cons d rest => simp [placedItems, placed, Item.inPrologue]
  simp [Outline.ofItems, imports, defaults, names, declarations, prologue]

/-- **Reading undoes rendering.** -/
theorem outline?_rendered {l : Language} {ds : List Import} (h : ∀ d ∈ ds, d.WellFormed)
    (typed : l.typed = true ∨ ∀ d ∈ ds, d.Untyped) :
    outline? l (String.intercalate "\n" (ds.map (·.render))) =
      some { imports := placed 0 ds } := by
  have noBang : Cursor.token? hashBang? ⟨0, linesText ds⟩ = none := by
    cases ds with
    | nil => rfl
    | cons d rest =>
      obtain ⟨more, text, -⟩ := linesText_cons d rest
      rw [text]; rfl
  have items : items? l (linesText ds) = some (placedItems 0 ds) := by
    have start : Cursor.skipGap (Cursor.start (linesText ds)) = ⟨0, linesText ds⟩ :=
      skipGap_lines 0 ds
    have count := length_linesText ds
    simp only [items?, start, noBang]
    refine itemsFrom_lines h typed ?_ ?_ ?_ (skipGap_lines 0 ds)
    · intro d hd
      have names := length_statementText (h d hd).spelled
      have line := length_le_linesText hd
      simp only [Scope.of]
      omega
    · simp only [Scope.of]
      omega
    · simp only [Scope.of]
      omega
  rw [outline?, render_lines h, items, Option.map_some, ofItems_placedItems]

theorem unplaced_placed (offset : Nat) (ds : List Import) :
    (placed offset ds).map unplaced = ds.map unplaced := by
  induction ds generalizing offset with
  | nil => rfl
  | cons d rest ih => simp [placed, ih, unplaced]

/-- Each place holds the rendering of its declaration. -/
theorem slice_placed {ds : List Import} (h : ∀ d ∈ ds, d.WellFormed) (front : List Char) :
    (placed (byteSize front) ds).map (fun d => slice (front ++ linesText ds) d.span) =
      ds.map (·.render.toList) := by
  induction ds generalizing front with
  | nil => rfl
  | cons d rest ih =>
    obtain ⟨more, text, last⟩ := linesText_cons d rest
    have here := render_toList (h d List.mem_cons_self).spelled
    have first : slice (front ++ linesText (d :: rest))
        ⟨byteSize front, byteSize front + byteSize d.render.toList⟩ = d.render.toList := by
      rw [text, here, ← List.append_assoc]
      exact slice_append front (statementText d) more
    rw [placed, List.map_cons, List.map_cons, first]
    congr 1
    rcases last with ⟨rfl, -⟩ | ⟨-, rfl⟩
    · rfl
    · have rest := ih (fun d hd => h d (List.mem_cons_of_mem _ hd))
        (front ++ statementText d ++ ['\n'])
      have feed : Char.utf8Size '\n' = 1 := rfl
      simpa [text, here, feed, Nat.add_assoc] using rest

/-- The imports of a text that holds one well-formed declaration a line are these declarations, and
each of them is found where it was written. -/
theorem rendered_imports_read_back (l : Language) (ds : List Import)
    (h : ∀ d ∈ ds, d.WellFormed) (typed : l.typed = true ∨ ∀ d ∈ ds, d.Untyped) :
    ∃ o, outline? l (String.intercalate "\n" (ds.map (·.render))) = some o ∧
      o.imports.map unplaced = ds.map unplaced ∧
      o.imports.map (fun d =>
        slice (String.intercalate "\n" (ds.map (·.render))).toList d.span) =
          ds.map (·.render.toList) ∧
      o.defaultExport = none ∧ o.namedExports = [] ∧ o.declarations = [] := by
  refine ⟨_, outline?_rendered h typed, unplaced_placed 0 ds, ?_, rfl, rfl, rfl⟩
  rw [render_lines h]
  exact slice_placed h []

/-- Declarations of every form. -/
def variedImports : List Import := [
  { specifier := "./styles.css" },
  { specifier := "@/store", defaultName := some "store", semicolon := false,
    named := [⟨"useStore", some "useMain", false⟩, ⟨"State", none, true⟩] },
  { specifier := "react", namespaceName := some "React", quote := "\x27" },
  { specifier := "größe", defaultName := some "$size", namespaceName := some "_sizes" },
  { specifier := "./types", named := [⟨"Props", none, false⟩], typeOnly := true }]

theorem varied_imports_read_back :
    (∀ d ∈ variedImports, d.WellFormed) ∧
    (Language.tsx.typed = true ∨ ∀ d ∈ variedImports, d.Untyped) ∧
    ∃ o, outline? .tsx (String.intercalate "\n" (variedImports.map (·.render))) = some o ∧
      o.imports.map unplaced = variedImports.map unplaced ∧
      o.imports.map (fun d =>
        slice (String.intercalate "\n" (variedImports.map (·.render))).toList d.span) =
          variedImports.map (·.render.toList) ∧
      o.defaultExport = none ∧ o.namedExports = [] ∧ o.declarations = [] :=
  have wellFormed : ∀ d ∈ variedImports, d.WellFormed := by decide
  have typed : Language.tsx.typed = true ∨ ∀ d ∈ variedImports, d.Untyped := .inl rfl
  ⟨wellFormed, typed, rendered_imports_read_back .tsx variedImports wellFormed typed⟩

end ModuleRepair.Script
