import ModuleRepair.Proofs.Script.ImportClause

/-!
# Reading a rendered import statement

A well-formed declaration is rendered as one import statement (`render_toList`), and that statement
is read as the declaration, with the end of its line or its semicolon (`importStatement_reads`).
-/
namespace ModuleRepair.Script

open ModuleRepair.Text Reader

/-! ## Specifiers -/

/-- The specifier between its quotes. -/
def quotedText (d : Import) : List Char :=
  d.quote.toList ++ d.specifier.toList ++ d.quote.toList

theorem quotedText_eq {d : Import} (h : d.Spelled) :
    ∃ q, (q = '"' ∨ q = '\x27') ∧ d.quote = String.ofList [q] ∧
      plainBetween q d.specifier.toList = true ∧
      quotedText d = q :: (d.specifier.toList ++ [q]) := by
  have plain : ∀ q, d.quote.toList = [q] → plainBetween q d.specifier.toList = true := by
    intro q hq
    simp only [plainBetween, List.all_eq_true, Bool.and_eq_true, bne_iff_ne]
    intro c hc
    obtain ⟨notQuote, notEscape, notFeed, notReturn⟩ := h.specifier c hc
    exact ⟨⟨⟨by simpa [hq] using notQuote, notEscape⟩, notFeed⟩, notReturn⟩
  rcases h.quote with hq | hq
  · exact ⟨'"', .inl rfl, hq, plain _ (by simp [hq]), by simp [quotedText, hq]⟩
  · exact ⟨'\x27', .inr rfl, hq, plain _ (by simp [hq]), by simp [quotedText, hq]⟩

theorem string?_quotedText {d : Import} (h : d.Spelled) (rest : List Char) :
    string? (quotedText d ++ rest) = some (quotedText d).length := by
  obtain ⟨q, hq, -, plain, text⟩ := quotedText_eq h
  rw [text]
  simpa using string?_append hq plain rest

theorem startsToken_quotedText {d : Import} (h : d.Spelled) (rest : List Char) :
    startsToken (quotedText d ++ rest) = true := by
  obtain ⟨q, rfl | rfl, -, -, text⟩ := quotedText_eq h <;> rw [text] <;> rfl

/-! ## The beginning of a clause -/

/-- What stands behind a token of a given length and the gap that follows it. -/
def behind (n : Nat) (s : List Char) : List Char :=
  s.drop (n + gapLength (s.drop n))

theorem behind_append (s gap : List Char) {t : List Char} (h : gapLength (gap ++ t) = gap.length) :
    behind s.length (s ++ (gap ++ t)) = t := by
  simp [behind, h]

/-- Whether a word and an equals sign stand here. -/
def namesAlias (s : List Char) : Bool :=
  match word? s with
  | some n => (behind n s).head? == some '='
  | none => false

/-- The beginning of a text in which `from` and a specifier stand behind the bindings. -/
structure StartsFrom (s : List Char) : Prop where
  head : s.head? = some 'f'
  noAlias : namesAlias s = false
  namesType : ∀ offset, namesType ⟨offset, s⟩ = true

/-- The beginning of a text in which a clause stands. A default name is followed by other bindings,
or by `from` and a specifier. -/
inductive StartsClause : List Char → Prop where
  | name {name : String} (spelled : spellsWord name.toList = true) {c : Char} (rest : List Char)
      (next : c = ',' ∨ c = ' ') (more : c = ' ' → StartsFrom rest) :
      StartsClause (name.toList ++ c :: rest)
  | namespaceHere (rest : List Char) : StartsClause ('*' :: rest)
  | braces (rest : List Char) : StartsClause ('\x7b' :: rest)

theorem startsFrom_quotedText {d : Import} (h : d.Spelled) (rest : List Char) :
    StartsFrom (['f', 'r', 'o', 'm', ' '] ++ (quotedText d ++ rest)) where
  head := rfl
  noAlias := by
    have spelled : spellsWord ['f', 'r', 'o', 'm'] = true := rfl
    have word : word? (['f', 'r', 'o', 'm', ' '] ++ (quotedText d ++ rest)) = some 4 :=
      word?_append (s := ['f', 'r', 'o', 'm']) spelled rfl
    have gone : behind 4 (['f', 'r', 'o', 'm', ' '] ++ (quotedText d ++ rest)) =
        quotedText d ++ rest :=
      behind_append ['f', 'r', 'o', 'm'] [' ']
        (gapLength_blank isSpace_space (startsToken_quotedText h rest))
    obtain ⟨q, hq, -, -, text⟩ := quotedText_eq h
    simp only [namesAlias, word, gone]
    rw [text]
    rcases hq with rfl | rfl <;> rfl
  namesType offset := by
    have reads : Reads (do keyword "from"; gap; Reader.skip string?) offset
        (['f', 'r', 'o', 'm'] ++ ([' '] ++ quotedText d)) () rest :=
      .bind (.skip (keyword?_append _ rfl)) (.bind
        (.gap (gapLength_blank isSpace_space (startsToken_quotedText h rest)))
        (.skip (string?_quotedText h rest)))
    unfold Reads at reads
    simp only [List.append_assoc] at reads
    exact congrArg Option.isSome reads

theorem startsClause_clauseText {d : Import} (h : d.Spelled) (rest : List Char) :
    StartsClause (clauseText d ++ ([' ', 'f', 'r', 'o', 'm', ' '] ++ (quotedText d ++ rest))) := by
  unfold clauseText
  split
  · next name hd =>
    split
    · rw [List.append_assoc]
      exact .name (h.defaultName name hd) _ (.inl rfl) (by simp)
    · rw [List.append_nil]
      exact .name (h.defaultName name hd) _ (.inr rfl) fun _ => startsFrom_quotedText h rest
  · unfold bindingsText
    split
    · exact .namespaceHere _
    · exact .braces _

namespace StartsClause

variable {s : List Char}

theorem startsToken (h : StartsClause s) : startsToken s = true := by
  cases h with
  | name spelled => exact startsToken_of_spellsWord spelled _
  | namespaceHere => rfl
  | braces => rfl

/-- A clause starts with a keyword only if this is its default name. -/
theorem keyword? (h : StartsClause s) {word : String} (spelled : spellsWord word.toList = true) :
    keyword? word.toList s = none ∨ ∃ c rest, s = word.toList ++ c :: rest ∧
      (c = ',' ∨ c = ' ') ∧ (c = ' ' → StartsFrom rest) := by
  have nonempty : [] ≠ word.toList := by
    intro empty
    simp [← empty, spellsWord] at spelled
  simp only [spellsWord, Bool.and_eq_true] at spelled
  cases h with
  | @name name parts c rest next more =>
    simp only [spellsWord, Bool.and_eq_true] at parts
    by_cases same : name.toList = word.toList
    · exact .inr ⟨c, rest, by rw [same], next, more⟩
    · refine .inl (keyword?_of_word spelled.1 parts.1 same ?_)
      rcases next with rfl | rfl <;> rfl
  | namespaceHere rest => exact .inl (keyword?_of_word (s := []) spelled.1 rfl nonempty rfl)
  | braces rest => exact .inl (keyword?_of_word (s := []) spelled.1 rfl nonempty rfl)

theorem head?_ne (h : StartsClause s) {c : Char} (part : isIdentifierPart c = false)
    (star : c ≠ '*') (brace : c ≠ '\x7b') : s.head? ≠ some c := by
  cases h with
  | @name name spelled _ rest =>
    cases hn : name.toList with
    | nil => simp [hn, spellsWord] at spelled
    | cons d more =>
      simp only [hn, spellsWord, List.all_cons, Bool.and_eq_true] at spelled
      simp only [List.cons_append, List.head?_cons, ne_eq, Option.some.injEq]
      rintro rfl
      rw [part] at spelled
      exact absurd spelled.1.1 (by simp)
  | namespaceHere rest => simpa using star.symm
  | braces rest => simpa using brace.symm

/-- A word in front of a clause is no default name. -/
theorem namesType (h : StartsClause s) (offset : Nat) : namesType ⟨offset, s⟩ = false := by
  have refused : Refuses (do keyword "from"; gap; Reader.skip string?) offset s := by
    have spelled : spellsWord "from".toList = true := rfl
    rcases h.keyword? spelled with none | ⟨c, rest, rfl, next, more⟩
    · exact .bind _ (.skip none)
    · have ended : endsWord (c :: rest) = true := by rcases next with rfl | rfl <;> rfl
      have first : Reads (keyword "from") offset "from".toList () (c :: rest) :=
        .skip (keyword?_append _ ended)
      refine .bind_right first ?_
      rcases next with rfl | rfl
      · exact .bind_right (s := []) (a := ()) (.gap rfl) (.skip rfl)
      · obtain ⟨more, rfl⟩ := List.head?_eq_some_iff.mp (more rfl).head
        exact .bind_right (s := [' ']) (a := ()) (.gap rfl) (.skip rfl)
  unfold Script.namesType
  split
  · next more heq => exact absurd (congrArg List.head? heq) (h.head?_ne rfl (by decide) (by decide))
  · next more heq => exact absurd (congrArg List.head? heq) (h.head?_ne rfl (by decide) (by decide))
  · rw [refused]; rfl

end StartsClause

theorem string?_eq_none {s : List Char} (double : s.head? ≠ some '"')
    (single : s.head? ≠ some '\x27') : string? s = none := by
  cases s with
  | nil => rfl
  | cons c s =>
    simp only [List.head?_cons, ne_eq, Option.some.injEq] at double single
    simp [string?, double, single]

/-! ## No alias -/

theorem symbol?_of_head? {c : Char} {s : List Char} (h : s.head? ≠ some c) :
    symbol? [c] s = none := by
  cases s with
  | nil => rfl
  | cons d s =>
    have : (c == d) = false := by
      rw [beq_eq_false_iff_ne]
      rintro rfl
      exact h rfl
    exact symbol?_eq_none (by simp [List.isPrefixOf, this])

/-- A word, a gap and an equals sign, at the front or behind another pattern. -/
theorem run_named {g : Rule → Shape} {c : Cursor} (h : namesAlias c.rest = false) (n : Nat) :
    Pattern.run g (n + 3) (Shape.word ++ Shape.gap ++ Shape.sym "=") c = none := by
  change Pattern.run g (n + 3) (.both (.both (.token word?) (.token _)) (.token (symbol? ['=']))) c
    = none
  unfold namesAlias behind at h
  cases hw : word? c.rest with
  | none => simp [Pattern.run, Cursor.token?, hw]
  | some k =>
    simp only [hw, beq_eq_false_iff_ne] at h
    simp [Pattern.run, Cursor.token?, hw, Cursor.advance_rest, symbol?_of_head? h]

theorem run_named_after {g : Rule → Shape} {p : Shape} {n : Nat} {c d : Cursor}
    (hp : Pattern.run g (n + 1) p c = some d) (h : namesAlias d.rest = false) :
    Pattern.run g (n + 4) (p ++ Shape.word ++ Shape.gap ++ Shape.sym "=") c = none := by
  change Pattern.run g (n + 4) (.both (.both (.both p (.token word?)) (.token _))
    (.token (symbol? ['=']))) c = none
  unfold namesAlias behind at h
  simp only [Pattern.run] at hp ⊢
  cases hw : word? d.rest with
  | none => simp [hp, Cursor.token?, hw]
  | some k =>
    simp only [hw, beq_eq_false_iff_ne] at h
    simp [hp, Cursor.token?, hw, Cursor.advance_rest, symbol?_of_head? h]

/-- The two forms of an alias are refused where a name stands in front of no equals sign. -/
theorem importAlias_refused {scope : Scope} {s : List Char} (fuel : 8 ≤ scope.fuel)
    (h : namesAlias s = false)
    (typed : keyword? "type".toList s = none ∨
      ∃ k, keyword? "type".toList s = some k ∧ namesAlias (behind k s) = false) (offset : Nat) :
    Refuses (importAlias scope) offset s := by
  obtain ⟨n, hn⟩ : ∃ n, scope.fuel = n + 6 := ⟨scope.fuel - 6, by omega⟩
  have first : Pattern.run (grammar scope.language) (n + 5)
      (Shape.kw "type" ++ Shape.gap ++ Shape.word ++ Shape.gap ++ Shape.sym "=") ⟨offset, s⟩
      = none := by
    rcases typed with none | ⟨k, hk, free⟩
    · change Pattern.run _ _ (.both (.both (.both (.both (.token (keyword? "type".toList)) _) _) _)
        _) _ = _
      simp only [Pattern.run, Cursor.token?, none, Option.map_none]
    · have marked : Pattern.run (grammar scope.language) (n + 2) (Shape.kw "type" ++ Shape.gap)
          ⟨offset, s⟩ = some ((Cursor.advance k ⟨offset, s⟩).advance
            (gapLength (Cursor.advance k ⟨offset, s⟩).rest)) := by
        change Pattern.run _ _ (.both (.token (keyword? "type".toList)) (.token _)) _ = _
        simp only [Pattern.run, Cursor.token?, hk, Option.map_some]
      refine run_named_after marked ?_
      simpa [Cursor.advance_rest, behind] using free
  have second := run_named (g := grammar scope.language) (c := ⟨offset, s⟩) h (n + 2)
  unfold importAlias only
  split
  · refine .bind _ (.pass ?_)
    rw [hn, Pattern.run, first]
    exact second
  · rfl

theorem StartsClause.namesAlias {s : List Char} (h : StartsClause s) : namesAlias s = false := by
  cases h with
  | @name name spelled c rest next more =>
    have word : word? (name.toList ++ c :: rest) = some name.toList.length := by
      apply word?_append spelled
      rcases next with rfl | rfl <;> rfl
    rw [Script.namesAlias, word]
    rcases next with rfl | rfl
    · have := behind_append name.toList [] (t := ',' :: rest) rfl
      rw [List.nil_append] at this
      simp [this]
    · cases rest with
      | nil => cases (more rfl).head
      | cons d rest =>
        obtain rfl : d = 'f' := by simpa using (more rfl).head
        have := behind_append name.toList [' '] (t := 'f' :: rest) rfl
        rw [List.singleton_append] at this
        simp [this]
  | namespaceHere rest => rfl
  | braces rest => rfl

/-- A clause that starts with the word `type` names no alias. -/
theorem StartsClause.typeNamesNoAlias {s : List Char} (h : StartsClause s) :
    Script.keyword? "type".toList s = none ∨
      ∃ k, Script.keyword? "type".toList s = some k ∧ Script.namesAlias (behind k s) = false := by
  have spelled : spellsWord "type".toList = true := rfl
  rcases h.keyword? spelled with none | ⟨c, rest, rfl, next, more⟩
  · exact .inl none
  · refine .inr ⟨4, keyword?_append _ (by rcases next with rfl | rfl <;> rfl), ?_⟩
    rcases next with rfl | rfl
    · rfl
    · obtain ⟨head, free, -⟩ := more rfl
      obtain ⟨rest, rfl⟩ := List.head?_eq_some_iff.mp head
      have gone : behind 4 ("type".toList ++ ([' '] ++ 'f' :: rest)) = 'f' :: rest :=
        behind_append "type".toList [' '] rfl
      exact (congrArg Script.namesAlias gone).trans free

/-! ## The parts of a statement -/

/-- The mark of an import of types. -/
def markText (d : Import) : List Char :=
  if d.typeOnly then ['t', 'y', 'p', 'e', ' '] else []

/-- A clause that starts with the word `type` binds a default name. -/
theorem typeMark_refused {s : List Char} (h : StartsClause s) (scope : Scope) (offset : Nat) :
    Refuses (do
      let mark ← only scope.language.typed
        (Reader.text (keyword? "type".toList) <|> Reader.text (keyword? "typeof".toList))
      gap
      if namesType (← MonadState.get) then failure
      return decide (mark = "type")) offset s := by
  unfold only
  split
  · have named {word : String} {c : Char} {rest : List Char} (offset : Nat)
        (next : c = ',' ∨ c = ' ') (more : c = ' ' → StartsFrom rest) : Refuses (do
            gap
            if namesType (← MonadState.get) then failure
            return decide (word = "type")) offset (c :: rest) := by
      rcases next with rfl | rfl
      · exact .bind_right (s := []) (a := ()) (.gap rfl) rfl
      · obtain ⟨head, -, names⟩ := more rfl
        obtain ⟨rest, rfl⟩ := List.head?_eq_some_iff.mp head
        refine .bind_right (s := [' ']) (a := ()) (.gap rfl) ?_
        refine .bind_right (s := []) (.get ..) ?_
        rw [if_pos (names _)]
        rfl
    have first : spellsWord "type".toList = true := rfl
    have second : spellsWord "typeof".toList = true := rfl
    rcases h.keyword? first with none | ⟨c, rest, rfl, next, more⟩
    · rcases h.keyword? second with none' | ⟨c, rest, rfl, next, more⟩
      · exact .bind _ (.or (.text none) (.text none'))
      · have ended : endsWord (c :: rest) = true := by rcases next with rfl | rfl <;> rfl
        exact .bind_right (.or_right (.text none) (.text (keyword?_append _ ended)))
          (named _ next more)
    · have ended : endsWord (c :: rest) = true := by rcases next with rfl | rfl <;> rfl
      exact .bind_right (.or_left _ (.text (keyword?_append _ ended))) (named _ next more)
  · rfl

theorem typeMark_reads {d : Import} {scope : Scope}
    (typed : scope.language.typed = true ∨ d.Untyped) {rest : List Char} (h : StartsClause rest)
    (offset : Nat) : Reads (typeMark scope) offset (markText d) d.typeOnly rest := by
  unfold markText
  cases ht : d.typeOnly with
  | false => exact .or_right (typeMark_refused h scope offset) (.pure ..)
  | true =>
    have hl : scope.language.typed = true := typed.resolve_right (by simp [Import.Untyped, ht])
    have start : gapLength (' ' :: rest) = 1 := gapLength_blank isSpace_space h.startsToken
    refine .or_left _ (.bind (s := ['t', 'y', 'p', 'e']) (t := [' ']) (a := "type") ?_
      (.bind_end (.gap start) (.bind_nil (.get ..) ?_)))
    · rw [only, if_pos hl]
      exact .or_left _ (.text (keyword?_append _ rfl))
    · rw [if_neg (by simp [h.namesType])]
      rfl

theorem fromClause_reads {d : Import} (h : d.Spelled) (offset : Nat) (rest : List Char) :
    Reads fromClause offset ([' ', 'f', 'r', 'o', 'm', ' '] ++ quotedText d)
      (String.ofList (quotedText d)) rest :=
  .bind (s := [' ']) (.gap rfl) (.bind (s := ['f', 'r', 'o', 'm']) (.skip (keyword?_append _ rfl))
    (.bind (s := [' ']) (.gap (gapLength_blank isSpace_space (startsToken_quotedText h rest)))
      (.text (string?_quotedText h rest))))

/-- The semicolon of a declaration, if it has one. -/
def stopText (d : Import) : List Char :=
  if d.semicolon then [';'] else []

theorem run_attributes {scope : Scope} (fuel : 8 ≤ scope.fuel) (offset : Nat)
    (rest : List Char) :
    Pattern.run (grammar scope.language) scope.fuel
      (.either (Shape.kw "with") (Pattern.only scope.language.typed (Shape.kw "assert")) ++
        Shape.gap ++ Shape.piece .object) ⟨offset, ';' :: rest⟩ = none := by
  obtain ⟨n, hn⟩ : ∃ n, scope.fuel = n + 4 := ⟨scope.fuel - 4, by omega⟩
  have withHere : (keyword? "with".toList (';' :: rest)) = none := rfl
  have assertHere : (keyword? "assert".toList (';' :: rest)) = none := rfl
  rw [hn]
  change Pattern.run _ _ (.both (.both (.either (.token (keyword? "with".toList)) _) _) _) _ = _
  unfold Pattern.only
  split
  · change Pattern.run _ _ (.both (.both (.either _ (.token (keyword? "assert".toList))) _) _) _ = _
    simp only [Pattern.run, Cursor.token?, withHere, assertHere, Option.map_none]
  · change Pattern.run _ _ (.both (.both (.either _ (.token fun _ => none)) _) _) _ = _
    simp only [Pattern.run, Cursor.token?, withHere, Option.map_none]

theorem attributes_none {scope : Scope} (fuel : 8 ≤ scope.fuel) {d : Import} {rest : List Char}
    (h : d.semicolon = true ∨ endsLine rest = true) (offset : Nat) :
    Reads (attributes scope) offset [] none (stopText d ++ rest) := by
  refine .or_right ?_ (.pure ..)
  unfold stopText
  split
  · have nothing : Reads (link scope false) offset [] () (';' :: rest) :=
      .skip (joinLength_semicolon _ rest)
    exact .bind_right (s := []) nothing (.bind _ (.slice (run_attributes fuel _ rest)))
  · next bare => exact .bind _ (.skip (joinLength_of_endsLine (h.resolve_left bare)))

theorem close_reads (scope : Scope) {d : Import} {rest : List Char}
    (h : d.semicolon = true ∨ endsLine rest = true) (offset : Nat) :
    Reads (close scope false) offset (stopText d) () rest := by
  unfold stopText
  split
  · exact .skip (closeLength_semicolon _ rest)
  · next bare => exact .skip (closeLength_of_endsLine (h.resolve_left bare))

/-! ## The statement -/

/-- Whether a declaration has a clause. -/
def hasClause (d : Import) : Bool :=
  d.defaultName.isSome || hasBindings d

/-- What stands between `import` and the end of the statement. -/
def bodyText (d : Import) : List Char :=
  if hasClause d then
    markText d ++ (clauseText d ++ ([' ', 'f', 'r', 'o', 'm', ' '] ++ quotedText d))
  else quotedText d

/-- The statement for a declaration. -/
def statementText (d : Import) : List Char :=
  ['i', 'm', 'p', 'o', 'r', 't', ' '] ++ (bodyText d ++ stopText d)

theorem startsToken_bodyText {d : Import} (h : d.Spelled) (rest : List Char) :
    startsToken (bodyText d ++ rest) = true := by
  unfold bodyText
  split
  · unfold markText
    split
    · rfl
    · rw [List.nil_append, List.append_assoc]
      exact (startsClause_clauseText h _).startsToken
  · exact startsToken_quotedText h rest

/-- Neither does the word `type` in front of a clause name an alias. -/
theorem importAlias_refused_marked {scope : Scope} (fuel : 8 ≤ scope.fuel) {s : List Char}
    (h : StartsClause s) (offset : Nat) :
    Refuses (importAlias scope) offset (['t', 'y', 'p', 'e', ' '] ++ s) := by
  have mark : behind 4 (['t', 'y', 'p', 'e', ' '] ++ s) = s :=
    behind_append ['t', 'y', 'p', 'e'] [' '] (gapLength_blank isSpace_space h.startsToken)
  have ended : endsWord (' ' :: s) = true := rfl
  have spelled : spellsWord ['t', 'y', 'p', 'e'] = true := rfl
  have word : word? (['t', 'y', 'p', 'e', ' '] ++ s) = some 4 := word?_append spelled ended
  have keyword : keyword? "type".toList (['t', 'y', 'p', 'e', ' '] ++ s) = some 4 :=
    keyword?_append ['t', 'y', 'p', 'e'] ended
  refine importAlias_refused fuel ?_ (.inr ⟨4, keyword, ?_⟩) offset
  · rw [namesAlias, word]
    change ((behind 4 _).head? == some '=') = false
    rw [mark, beq_eq_false_iff_ne]
    exact h.head?_ne rfl (by decide) (by decide)
  · rw [mark]
    exact h.namesAlias

theorem importAlias_refused_bodyText {d : Import} (h : d.Spelled) {scope : Scope}
    (fuel : 8 ≤ scope.fuel) (offset : Nat) (rest : List Char) :
    Refuses (importAlias scope) offset (bodyText d ++ rest) := by
  unfold bodyText
  split
  · rw [List.append_assoc, List.append_assoc, List.append_assoc _ (quotedText d)]
    have clause := startsClause_clauseText h rest
    unfold markText
    split
    · exact importAlias_refused_marked fuel clause offset
    · exact importAlias_refused fuel clause.namesAlias clause.typeNamesNoAlias offset
  · obtain ⟨q, hq, -, -, text⟩ := quotedText_eq h
    have word : word? (quotedText d ++ rest) = none := by
      rw [text]
      apply word?_eq_none
      rcases hq with rfl | rfl <;> rfl
    have none : keyword? "type".toList (quotedText d ++ rest) = none := by
      rw [text]
      rcases hq with rfl | rfl <;> rfl
    exact importAlias_refused fuel (by simp [namesAlias, word]) (.inl none) offset

/-- A declaration apart from its place. -/
def unplaced (d : Import) : Import :=
  { d with span := ⟨0, 0⟩ }

theorem importFrom_quotedText {d : Import} (h : d.Spelled) :
    importFrom (String.ofList (quotedText d)) d.typeOnly
      (d.defaultName, d.namespaceName, d.named) none d.semicolon = unplaced d := by
  obtain ⟨q, hq, quote, -, text⟩ := quotedText_eq h
  have unquoted : unquoted (String.ofList (quotedText d)) = d.specifier := by
    simp only [unquoted, text, String.toList_ofList]
    rw [if_pos (by rcases hq with rfl | rfl <;> simp)]
    simp
  rw [importFrom, unquoted]
  simp only [unplaced, text, String.toList_ofList, List.take_succ_cons, List.take_zero, ← quote,
    ← h.attributes]

theorem dropEnd_append_singleton {p : Char → Bool} {c : Char} (h : p c = false) (s : List Char) :
    dropEnd p (s ++ [c]) = s ++ [c] := by
  simp [dropEnd, h]

theorem endsWithSemicolon_reads {d : Import} (h : d.Spelled) (offset : Nat)
    (rest : List Char) :
    Reads (endsWithSemicolon ⟨offset, statementText d ++ rest⟩)
      (offset + byteSize (statementText d)) [] d.semicolon rest := by
  have last : ((dropEnd isBlank (statementText d)).getLast? == some ';') = d.semicolon := by
    obtain ⟨q, hq, -, -, text⟩ := quotedText_eq h
    have body : ∃ front, ['i', 'm', 'p', 'o', 'r', 't', ' '] ++ bodyText d = front ++ [q] := by
      unfold bodyText
      split
      · exact ⟨['i', 'm', 'p', 'o', 'r', 't', ' '] ++ (markText d ++ (clauseText d ++
          ([' ', 'f', 'r', 'o', 'm', ' '] ++ q :: d.specifier.toList))), by simp [text]⟩
      · exact ⟨['i', 'm', 'p', 'o', 'r', 't', ' '] ++ q :: d.specifier.toList, by simp [text]⟩
    obtain ⟨front, body⟩ := body
    rw [statementText, ← List.append_assoc, body, stopText]
    cases d.semicolon with
    | true =>
      rw [if_pos rfl, dropEnd_append_singleton (by decide)]
      simp
    | false =>
      have solid : isBlank q = false := by rcases hq with rfl | rfl <;> decide
      rw [if_neg (by simp), List.append_nil, dropEnd_append_singleton solid]
      rcases hq with rfl | rfl <;> simp
  unfold Reads endsWithSemicolon
  simp only [List.nil_append, byteSize_nil, Nat.add_zero, Cursor.textTo_append, last]

/-- The marks, the clause and the specifier behind `import`. -/
theorem body_reads {d : Import} (h : d.Spelled) {scope : Scope}
    (typed : scope.language.typed = true ∨ d.Untyped) (names : d.named.length ≤ scope.fuel)
    (offset : Nat) (rest : List Char) :
    Reads ((do return (← text string?, false, none, none, [])) <|> (do
        let typeOnly ← typeMark scope
        let clause ← importClause scope
        return (← fromClause, typeOnly, clause)) :
      Reader (String × Bool × Option String × Option String × List NamedImport)) offset
      (bodyText d) (String.ofList (quotedText d), d.typeOnly, d.defaultName, d.namespaceName,
        d.named) rest := by
  unfold bodyText
  cases hc : hasClause d with
  | true =>
    rw [if_pos rfl]
    have marked := startsClause_clauseText h rest
    have clause := fun offset => importClause_reads h (by simpa [hasClause] using hc) typed names
      offset ('r' :: 'o' :: 'm' :: ' ' :: (quotedText d ++ rest))
    refine .or_right (.bind _ (.text ?_)) (.bind (typeMark_reads typed ?_ _)
      (.bind (clause _) (.map (f := fun specifier => (specifier, _)) (fromClause_reads h _ rest))))
    · unfold markText
      split
      · rfl
      · rw [List.nil_append, List.append_assoc]
        exact string?_eq_none (marked.head?_ne rfl (by decide) (by decide))
          (marked.head?_ne rfl (by decide) (by decide))
    · rw [List.append_assoc]
      exact marked
  | false =>
    simp only [hasClause, hasBindings, Bool.or_eq_false_iff, Option.isSome_eq_false_iff,
      Option.isNone_iff_eq_none, Bool.not_eq_false', List.isEmpty_iff] at hc
    obtain ⟨noDefault, noNamespace, noNames⟩ := hc
    have untyped : d.typeOnly = false := by
      by_cases ht : d.typeOnly = true
      · exact absurd (by simp [Import.localNames, given, *]) (h.typeOnly ht)
      · simpa using ht
    rw [noDefault, noNamespace, noNames, untyped]
    exact .or_left _ (.map (f := fun specifier => (specifier, false, none, none, []))
      (.text (string?_quotedText h rest)))

/-- A rendered statement is read as its declaration. Without a semicolon, it ends with its line. -/
theorem importStatement_reads {d : Import} (h : d.Spelled) {scope : Scope}
    (typed : scope.language.typed = true ∨ d.Untyped) (names : d.named.length ≤ scope.fuel)
    (fuel : 8 ≤ scope.fuel) (offset : Nat) {rest : List Char}
    (hr : d.semicolon = true ∨ endsLine rest = true) :
    Reads (importStatement scope) offset (statementText d) (.importing (unplaced d)) rest := by
  have ending := endsWithSemicolon_reads h offset rest
  have size : offset + byteSize (statementText d) = offset + byteSize ['i', 'm', 'p', 'o', 'r', 't']
      + byteSize [' '] + byteSize (bodyText d) + byteSize (stopText d) := by
    simp [statementText, Nat.add_assoc]
  rw [size] at ending
  refine .bind_nil (.get ..) ?_
  refine .bind (s := ['i', 'm', 'p', 'o', 'r', 't']) (.skip (keyword?_append _ rfl))
    (.bind (s := [' ']) (.gap ?_) (.or_right ?_ (.bind (body_reads h typed names _ _)
      (.bind_nil (attributes_none fuel hr _) (.bind_end (close_reads scope hr _) ?_)))))
  · rw [List.append_assoc]
    exact gapLength_blank isSpace_space (startsToken_bodyText h _)
  · rw [List.append_assoc]
    exact importAlias_refused_bodyText h fuel _ _
  · rw [← importFrom_quotedText h]
    exact .map (f := fun semicolon => Statement.importing (importFrom _ _ _ _ semicolon)) ending

end ModuleRepair.Script
