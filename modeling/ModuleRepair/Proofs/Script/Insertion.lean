import ModuleRepair.Proofs.Script.Opening
import ModuleRepair.Proofs.Script.RoundTrip

/-!
# Inserting a statement

A rendered import with a semicolon, or a directive with one, is read in the same way whatever stands
behind it (`Stands`). So such statements stay what they are when the text behind them changes
(`firstItems?_steady`), and one of them can be put between the others of a module: those behind it
are read as before if those in front of it are (`items?_inserted_of_first`).
-/
namespace ModuleRepair.Script

open ModuleRepair.Text

/-! ## Directives -/

theorem stringScan_append_right {quote : Char} {seen n : Nat} {s : List Char}
    (h : stringScan quote seen s = some n) (rest : List Char) :
    stringScan quote seen (s ++ rest) = some n := by
  fun_induction stringScan quote seen s with
  | case1 => cases h
  | case2 seen rest' ih => exact ih h
  | case3 seen c rest' other ih =>
    cases rest' with
    | nil => cases h
    | cons a rest' =>
      have again := ih h
      simp only [List.cons_append] at again ⊢
      rw [stringScan]
      · exact again
      · rintro rest'' rfl same
        cases same
        exact other _ rfl rfl
  | case4 => cases h
  | case5 seen c rest' _ closes =>
    rw [List.cons_append, stringScan, if_pos closes]
    · exact h
    · grind
  | case6 => cases h
  | case7 seen c rest' plain open' inLine ih =>
    rw [List.cons_append, stringScan, if_neg open', if_neg inLine]
    · exact ih h
    · grind

/-- A string literal is read whatever follows. -/
theorem string?_append_right {s : List Char} {n : Nat} (h : string? s = some n)
    (rest : List Char) : string? (s ++ rest) = some n := by
  cases s with
  | nil => cases h
  | cons c s =>
    simp only [string?, List.cons_append] at h ⊢
    split at h
    · next quote => rw [if_pos quote, stringScan_append_right h]
    · cases h

namespace Pattern

variable {ρ : Type} {grammar : ρ → Pattern ρ} {p q : Pattern ρ} {c : Cursor}

/-- Whether a pattern matches nothing here, whatever its fuel. -/
def Fails (grammar : ρ → Pattern ρ) (p : Pattern ρ) (c : Cursor) : Prop :=
  ∀ n, run grammar n p c = none

theorem Fails.token {measure : List Char → Option Nat} (h : measure c.rest = none) :
    Fails grammar (.token measure) c := by
  intro n
  cases n <;> simp [run, Cursor.token?, h]

theorem Fails.both (h : Fails grammar p c) : Fails grammar (p ++ q) c := by
  intro n
  cases n with
  | zero => rfl
  | succ n =>
    change run grammar (n + 1) (.both p q) c = none
    simp only [run, h n]

theorem Fails.rule {name : ρ} (h : Fails grammar (grammar name) c) :
    Fails grammar (.rule name) c := by
  intro n
  cases n with
  | zero => rfl
  | succ n => exact h n

theorem Fails.many {n : Nat} (h : Fails grammar p c) :
    run grammar (n + 1) (.many p) c = some c := by
  simp only [run, h n]

end Pattern

section

variable {s : Scope} {q : Char} {standing : Standing}

theorem keyword_refused (quote : q = '"' ∨ q = '\x27') {k : String}
    (letter : k.toList.head?.any (fun c => c != '"' && c != '\x27') = true) (offset : Nat)
    (rest : List Char) : Refuses (Reader.keyword k) offset (q :: rest) := by
  obtain ⟨c, first, other⟩ := (Option.any_eq_true _ _).mp letter
  obtain ⟨more, split⟩ := List.head?_eq_some_iff.mp first
  rw [Bool.and_eq_true] at other
  have differs : (c == q) = false := by
    rcases quote with rfl | rfl
    · simpa using other.1
    · simpa using other.2
  refine .skip ?_
  rw [keyword?, split, List.isPrefixOf_cons_cons, differs]
  rfl

theorem only_refused {α : Type} {b : Bool} {r : Reader α} {offset : Nat} {text : List Char}
    (h : Refuses r offset text) : Refuses (Reader.only b r) offset text := by
  cases b
  · rfl
  · exact h

/-- No decorator starts with a quote. -/
theorem decorators_none (quote : q = '"' ∨ q = '\x27') (fuel : 0 < s.fuel) (offset : Nat)
    (rest : List Char) : Reads (Reader.pass s (.many (Shape.piece .decorator ++ Shape.gap))) offset
      [] () (q :: rest) := by
  obtain ⟨n, enough⟩ : ∃ n, s.fuel = n + 1 := ⟨s.fuel - 1, by omega⟩
  have noAt : symbol? "@".toList (q :: rest) = none := by
    rcases quote with rfl | rfl <;> rfl
  have fails : Pattern.Fails (grammar s.language) (Shape.piece .decorator ++ Shape.gap)
      ⟨offset, q :: rest⟩ :=
    .both (.rule (.both (.both (.token noAt))))
  unfold Reads Reader.pass
  rw [enough, List.nil_append, fails.many]
  rfl

/-- No declaration starts with a quote. -/
theorem declared_refused (quote : q = '"' ∨ q = '\x27') (fuel : 0 < s.fuel) (offset : Nat)
    (rest : List Char) : Refuses (declared s standing) offset (q :: rest) := by
  have word {k : String} (letter : k.toList.head?.any (fun c => c != '"' && c != '\x27') = true)
      (offset : Nat) : Refuses (Reader.keyword k) offset (q :: rest) :=
    keyword_refused quote letter offset rest
  have place : Reads Reader.offset offset [] offset (q :: rest) := rfl
  refine .bind_right (s := []) place (.bind _ (.or ?_ (.or ?_ (.or ?_ ?_))))
  · exact .bind_right (s := []) (.or_right (.bind _ (word rfl _)) (.pure ..))
      (.bind _ (word rfl _))
  · refine only_refused (.or (.bind _ (word rfl _)) (.or (.bind _ (word rfl _)) (.or ?_
      (.or (.bind _ (word rfl _)) (.bind _ (word rfl _))))))
    exact .bind_right (s := []) (.or_right (.bind _ (word rfl _)) (.pure ..))
      (.bind _ (word rfl _))
  · exact .bind _ (.or (.bind _ (word rfl _)) (.or (.bind _ (word rfl _))
      (.bind _ (word rfl _))))
  · exact .bind_right (s := []) (decorators_none quote fuel _ _) (.bind_right (s := [])
      (.or_right (.bind _ (only_refused (word rfl _))) (.pure ..)) (.bind _ (word rfl _)))

theorem exists_quote {literal : List Char} (h : string? literal = some literal.length) :
    ∃ q more, literal = q :: more ∧ (q = '"' ∨ q = '\x27') := by
  cases literal with
  | nil => cases h
  | cons q more =>
    refine ⟨q, more, rfl, ?_⟩
    by_contra other
    rw [not_or] at other
    simp [string?, other.1, other.2] at h

/-- A string literal with a semicolon behind it is a directive, whatever follows. -/
theorem statementHere_directive {literal : List Char} (fuel : 0 < s.fuel)
    (h : string? literal = some literal.length) (offset : Nat) (rest : List Char) :
    Reads (statementHere s) offset (literal ++ [';']) .directive rest := by
  obtain ⟨q, more, rfl, quote⟩ := exists_quote h
  have get : Reads (MonadState.get : Reader Cursor) offset [] ⟨offset, q :: more ++ [';'] ++ rest⟩
      (q :: more ++ [';'] ++ rest) := rfl
  refine .or_right (.bind_right (s := []) get (.bind _ (keyword_refused quote rfl _ _)))
    (.or_right (.bind_right (s := []) (decorators_none quote fuel _ _)
      (.bind _ (keyword_refused quote rfl _ _)))
      (.or_right (.bind _ (declared_refused quote fuel _ _)) (.or_left _ ?_)))
  refine .bind (.skip ?_) (.bind_end (.skip (closeLength_semicolon _ rest)) (.pure ..))
  exact string?_append_right h _

end

/-! ## Statements that stand by themselves -/

/-- A piece of text that is read as one statement wherever it stands, and whatever stands behind
it. -/
structure Stands (l : Language) (piece : List Char) (statement : Statement) : Prop where
  starts : ∀ rest, startsToken (piece ++ rest) = true
  noBang : ∀ rest, hashBang? (piece ++ rest) = none
  takes : 0 < byteSize piece
  reads : ∀ text : List Char, piece.length ≤ text.length → ∀ offset rest,
    Reads (statementHere (Scope.of l text)) offset piece statement rest

theorem Stands.directive {literal : List Char} (l : Language)
    (h : string? literal = some literal.length) :
    Stands l (literal ++ [';']) .directive where
  starts rest := by
    obtain ⟨q, more, rfl, rfl | rfl⟩ := exists_quote h <;> rfl
  noBang rest := by
    obtain ⟨q, more, rfl, rfl | rfl⟩ := exists_quote h <;> rfl
  takes := by
    have semicolon : 0 < Char.utf8Size ';' := Char.utf8Size_pos ';'
    rw [byteSize_append, byteSize_cons]
    omega
  reads text _ := statementHere_directive (Nat.mul_pos (by decide) (Nat.succ_pos _)) h

/-- An import that can be written as a statement that ends with a semicolon, in a language. -/
structure Writable (l : Language) (d : Import) : Prop where
  spelled : d.Spelled
  typed : l.typed = true ∨ d.Untyped
  semicolon : d.semicolon = true

theorem Writable.stands {l : Language} {d : Import} (h : Writable l d) :
    Stands l d.render.toList (.importing (unplaced d)) where
  starts rest := by
    rw [render_toList h.spelled]
    rfl
  noBang rest := by
    rw [render_toList h.spelled]
    rfl
  takes := by
    have letter : 0 < Char.utf8Size 'i' := Char.utf8Size_pos 'i'
    rw [render_toList h.spelled]
    simp only [statementText, List.cons_append, byteSize_cons]
    omega
  reads text short offset rest := by
    rw [render_toList h.spelled] at short ⊢
    have names := length_statementText h.spelled
    have bound : (Scope.of l text).fuel = 200 * (text.length + 10) := rfl
    exact .or_left _ (importStatement_reads h.spelled h.typed (by omega) (by omega) offset
      (.inl h.semicolon))

section

variable {l : Language} {s : Scope} {text gap piece rest : List Char} {statement : Statement}

/-- A statement that stands by itself is the next one behind any gap. -/
theorem Stands.nextItem? (h : Stands l piece statement) (short : piece.length ≤ text.length)
    (between : gapState .blank gap = some .blank) (offset : Nat) (rest : List Char) :
    nextItem? (Scope.of l text) ⟨offset, gap ++ (piece ++ rest)⟩ =
      some (⟨statement, ⟨offset + byteSize gap, offset + byteSize gap + byteSize piece⟩⟩,
        ⟨offset + byteSize gap + byteSize piece, rest⟩) := by
  have here : Cursor.skipGap ⟨offset, gap ++ (piece ++ rest)⟩ =
      ⟨offset + byteSize gap, piece ++ rest⟩ := by
    rw [Cursor.skipGap_append (gapLength_append between _), Cursor.skipGap,
      gapLength_eq_zero (h.starts rest)]
    rfl
  have takes := h.takes
  have there : (piece ++ rest).isEmpty = false := by
    cases piece with
    | nil => cases takes
    | cons => rfl
  have read : statementHere (Scope.of l text) ⟨offset + byteSize gap, piece ++ rest⟩ = _ :=
    h.reads text short _ rest
  simp only [Script.nextItem?, here, read, there]
  rw [if_pos ⟨rfl, by omega⟩]

end

/-! ## Inserting -/

/-- A statement whose text starts at an offset. -/
def Item.startingAt (offset : Nat) (piece : List Char) (statement : Statement) : Item :=
  ⟨statement, ⟨offset, offset + byteSize piece⟩⟩

section

variable {l : Language} {before lead piece trail after : List Char} {statement : Statement}
  {front others : List Item}

/-- A text with a statement put in is read as its first statements, the new one and those behind
it. -/
theorem items?_inserted (stands : Stands l piece statement)
    (inFront : gapState .blank lead = some .blank) (behind : gapState .blank trail = some .blank)
    (first : firstItems? l (before ++ (lead ++ (piece ++ (trail ++ after)))) front.length =
      some (front, ⟨byteSize before, lead ++ (piece ++ (trail ++ after))⟩))
    (rest : itemsFrom (Scope.of l after) (after.length + 1) (.start after) = some others) :
    items? l (before ++ (lead ++ (piece ++ (trail ++ after)))) = some (front ++
      .startingAt (byteSize (before ++ lead)) piece statement ::
        others.map (Item.later (byteSize (before ++ lead ++ piece ++ trail)))) := by
  have noBang : front = [] →
      hashBangItem? (before ++ (lead ++ (piece ++ (trail ++ after)))) = none := by
    rintro rfl
    exact hashBangItem?_of_first first
  set whole := before ++ (lead ++ (piece ++ (trail ++ after))) with whole_eq
  have length : whole.length = before.length + (lead.length + (piece.length +
      (trail.length + after.length))) := by
    simp only [whole_eq, List.length_append]
  have split : whole = (before ++ lead ++ piece ++ trail) ++ after := by
    simp only [whole_eq, List.append_assoc]
  have next := stands.nextItem? (by omega : piece.length ≤ whole.length) inFront
    (byteSize before) (trail ++ after)
  rw [← byteSize_append before lead] at next
  have skipped : Cursor.skipGap ⟨byteSize (before ++ lead) + byteSize piece, trail ++ after⟩ =
      Cursor.skipGap ⟨byteSize (before ++ lead ++ piece ++ trail), after⟩ := by
    rw [Cursor.skipGap_append (gapLength_append behind after)]
    simp only [byteSize_append]
  have following : itemsFrom (Scope.of l whole) (whole.length + 1)
      ⟨byteSize (before ++ lead) + byteSize piece, trail ++ after⟩ =
        some (others.map (Item.later (byteSize (before ++ lead ++ piece ++ trail)))) := by
    have enough : after.length < whole.length + 1 := by omega
    rw [itemsFrom_congr skipped, split, itemsFrom_suffix _ _ (split ▸ enough), rest]
    rfl
  refine (items?_append noBang).mpr ⟨_, first, whole.length + 2, ?_,
    itemsFrom_cons.mpr ⟨_, next, following⟩⟩
  simp only [List.length_append]
  omega

/-- The others are read as before if those in front of the statement are. -/
theorem items?_inserted_of_first (stands : Stands l piece statement)
    (inFront : gapState .blank lead = some .blank) (behind : gapState .blank trail = some .blank)
    (first : firstItems? l (before ++ after) front.length = some (front, ⟨byteSize before, after⟩))
    (rest : itemsFrom (Scope.of l after) (after.length + 1) (.start after) = some others)
    {d : Cursor} (opening : firstItems? l (before ++ (lead ++ (piece ++ (trail ++ after))))
      front.length = some (front, d)) :
    items? l (before ++ (lead ++ (piece ++ (trail ++ after)))) = some (front ++
      .startingAt (byteSize (before ++ lead)) piece statement ::
        others.map (Item.later (byteSize (before ++ lead ++ piece ++ trail)))) := by
  obtain rfl := firstItems?_place first opening
  exact items?_inserted stands inFront behind opening rest

/-- The statements in front of one that names no interpreter are the first ones of the text. -/
theorem exists_first_of_items {text : List Char} {item : Item} {back : List Item}
    (h : items? l text = some (front ++ item :: back)) (plain : item.statement ≠ .hashBang) :
    ∃ d, firstItems? l text front.length = some (front, d) := by
  have noBang : front = [] → hashBangItem? text = none := by
    rintro rfl
    exact hashBangItem?_of_items h fun other there => Option.some.inj there ▸ plain
  obtain ⟨d, opening, -⟩ := (items?_append noBang).mp h
  exact ⟨d, opening⟩

end

/-! ## Lines that name an interpreter -/

section

variable {l : Language} {text gap piece rest : List Char} {item : Item}

/-- A line that names an interpreter goes on to the next line feed. -/
theorem hashBangItem?_goesOn {line behind more : List Char}
    (h : hashBangItem? (line ++ rest) = some (item, ⟨byteSize line, rest⟩))
    (unbroken : '\n' ∉ more) (feed : ∀ c ∈ behind.head?, c = '\n') :
    hashBangItem? (line ++ (more ++ behind)) =
      some (⟨.hashBang, ⟨item.span.start, byteSize (line ++ more)⟩⟩,
        ⟨byteSize (line ++ more), behind⟩) := by
  obtain ⟨stop, token, same⟩ := Option.map_eq_some_iff.mp h
  obtain ⟨rfl, rfl⟩ := Prod.mk.inj same
  obtain ⟨n, measured, reached⟩ := Option.map_eq_some_iff.mp token
  obtain ⟨name, taken, unbroken', -⟩ := hashBang?_eq_some measured
  have dropped := congrArg Cursor.rest reached
  rw [Cursor.advance_rest] at dropped
  have whole := List.take_append_drop n (Cursor.start (line ++ rest)).skipGap.rest
  rw [taken, dropped] at whole
  obtain ⟨gap, split, offset, between⟩ := Cursor.exists_gap (c := .start (line ++ rest))
    (by rw [← whole]; nofun)
  have starts : (Cursor.start (line ++ rest)).skipGap.offset = byteSize gap := by
    rw [offset, Cursor.start, Nat.zero_add]
  rw [← whole] at split
  obtain rfl : line = gap ++ '#' :: '!' :: name :=
    List.append_cancel_right (split.trans (by simp))
  have here : (Cursor.start ((gap ++ '#' :: '!' :: name) ++ (more ++ behind))).skipGap =
      ⟨byteSize gap, ('#' :: '!' :: (name ++ more)) ++ behind⟩ := by
    rw [Cursor.start, List.append_assoc, Cursor.skipGap_append (gapLength_append between _),
      Cursor.skipGap, gapLength_eq_zero rfl]
    simp [Cursor.advance]
  have stops : (name ++ more ++ behind).takeWhile (· != '\n') = name ++ more := by
    have none : behind.takeWhile (· != '\n') = [] := by
      cases behind with
      | nil => rfl
      | cons c behind => simp [feed c rfl]
    rw [List.takeWhile_append_of_pos, none, List.append_nil]
    · rintro c there
      have other : c ≠ '\n' := by
        rintro rfl
        exact (List.mem_append.mp there).elim unbroken' unbroken
      simpa using other
  have token : hashBang? (('#' :: '!' :: (name ++ more)) ++ behind) =
      some ('#' :: '!' :: (name ++ more)).length := by
    simp only [List.cons_append, hashBang?, stops, List.length_cons]
    rw [Nat.add_comm]
  simp only [hashBangItem?, here, Cursor.token?, token, Option.map_some, Cursor.advance_append]
  rw [starts]
  simp

theorem feed_of_hashBangItem? {line : List Char}
    (h : hashBangItem? (line ++ rest) = some (item, ⟨byteSize line, rest⟩)) :
    ∀ c ∈ rest.head?, c = '\n' := by
  obtain ⟨stop, token, same⟩ := Option.map_eq_some_iff.mp h
  obtain ⟨-, rfl⟩ := Prod.mk.inj same
  obtain ⟨n, measured, reached⟩ := Option.map_eq_some_iff.mp token
  obtain ⟨-, -, -, feed⟩ := hashBang?_eq_some measured
  have dropped := congrArg Cursor.rest reached
  rw [Cursor.advance_rest] at dropped
  rwa [dropped] at feed

/-- A text that starts with a statement of another form names no interpreter. -/
theorem hashBangItem?_of_stands {statement : Statement} (stands : Stands l piece statement)
    (between : gapState .blank gap = some .blank) (rest : List Char) :
    hashBangItem? (gap ++ (piece ++ rest)) = none := by
  have here : (Cursor.start (gap ++ (piece ++ rest))).skipGap = ⟨byteSize gap, piece ++ rest⟩ := by
    rw [Cursor.start, Cursor.skipGap_append (gapLength_append between _), Cursor.skipGap,
      gapLength_eq_zero (stands.starts rest), Nat.zero_add]
    rfl
  simp [hashBangItem?, here, Cursor.token?, stands.noBang rest]

end

/-! ## Statements in front -/

/-- Whether a statement of a text is of a form that stays what it is when the text behind it
changes. -/
def Item.Steady (l : Language) (text : List Char) (item : Item) : Prop :=
  match item.statement with
  | .hashBang => True
  | .directive => ∃ literal, slice text item.span = literal ++ [';'] ∧
      string? literal = some literal.length
  | .importing d => Writable l d ∧ slice text item.span = d.render.toList
  | _ => False

section

variable {l : Language} {text before here behind rest : List Char} {item : Item}
  {front : List Item} {e : Cursor}

theorem Item.Steady.exists_stands (steady : item.Steady l text)
    (plain : item.statement ≠ .hashBang) :
    ∃ statement, Stands l (slice text item.span) statement := by
  obtain ⟨statement, span⟩ := item
  cases statement with
  | hashBang => exact absurd rfl plain
  | directive =>
    obtain ⟨literal, written, h⟩ := steady
    rw [written]
    exact ⟨_, .directive l h⟩
  | importing d =>
    obtain ⟨writable, written⟩ := steady
    rw [written]
    exact ⟨_, writable.stands⟩
  | _ => exact steady.elim

/-- A steady statement of a text stands by itself there. -/
theorem exists_stands_of_next
    (h : nextItem? (Scope.of l (before ++ (here ++ behind))) ⟨byteSize before, here ++ behind⟩ =
      some (item, e))
    (steady : item.Steady l (before ++ (here ++ behind))) (left : e.rest = rest ++ behind) :
    ∃ gap piece, here = gap ++ (piece ++ rest) ∧ gapState .blank gap = some .blank ∧
      item.span = ⟨byteSize (before ++ gap), byteSize (before ++ gap ++ piece)⟩ ∧
      e = ⟨byteSize (before ++ gap ++ piece), rest ++ behind⟩ ∧ Stands l piece item.statement := by
  obtain ⟨statement, read, -, there, rfl⟩ := nextItem?_eq_some h
  obtain ⟨gap, split, start, between⟩ := Cursor.exists_gap there
  obtain ⟨piece, split', stop⟩ : Cursor.Reaches _ e := statementHere_forward _ _ _ _ read
  rw [left] at split'
  have whole : here = gap ++ (piece ++ rest) := by
    refine List.append_cancel_right (split.trans ?_)
    rw [split']
    simp only [List.append_assoc]
  have starts : (Cursor.skipGap ⟨byteSize before, here ++ behind⟩).offset =
      byteSize (before ++ gap) := by
    rw [start, byteSize_append]
  have stops : e.offset = byteSize (before ++ gap) + byteSize piece := by rw [stop, starts]
  have written : slice (before ++ (here ++ behind))
      ⟨byteSize (before ++ gap), byteSize (before ++ gap) + byteSize piece⟩ = piece := by
    have cut : before ++ (here ++ behind) = (before ++ gap) ++ piece ++ (rest ++ behind) := by
      rw [whole]
      simp only [List.append_assoc]
    rw [cut, slice_append]
  have plain : statement ≠ .hashBang := (statementHere_sits _ _ _ _ read).ne_hashBang
  obtain ⟨statement', stands⟩ := steady.exists_stands plain
  rw [starts, stops, written] at stands
  have short : piece.length ≤ (before ++ (here ++ behind)).length := by
    rw [whole]
    simp only [List.length_append]
    omega
  have again := stands.reads _ short (byteSize (before ++ gap)) (rest ++ behind)
  have place : Cursor.skipGap ⟨byteSize before, here ++ behind⟩ =
      ⟨byteSize (before ++ gap), piece ++ (rest ++ behind)⟩ := by
    rw [← starts, ← split']
  rw [place] at read
  obtain ⟨same, -⟩ := Prod.mk.inj (Option.some.inj (again.symm.trans read))
  refine ⟨gap, piece, whole, between, ?_, ?_, same ▸ stands⟩
  · rw [starts, stops, byteSize_append _ piece]
  · rw [byteSize_append _ piece, ← stops, ← left]

/-- Steady statements are read in the same way in a text that goes on differently behind them. -/
theorem firstFrom_steady {stop : Nat}
    (h : firstFrom (Scope.of l (before ++ (here ++ behind))) front.length
      ⟨byteSize before, here ++ behind⟩ = some (front, ⟨stop, behind⟩))
    (steady : ∀ item ∈ front, item.Steady l (before ++ (here ++ behind))) (other : List Char) :
    firstFrom (Scope.of l (before ++ (here ++ other))) front.length
      ⟨byteSize before, here ++ other⟩ = some (front, ⟨stop, other⟩) := by
  induction front generalizing before here with
  | nil =>
    have same : (⟨byteSize before, here ++ behind⟩ : Cursor) = ⟨stop, behind⟩ :=
      congrArg Prod.snd (Option.some.inj h)
    obtain ⟨rfl, rest⟩ := Cursor.mk.inj same
    obtain rfl : here = [] := List.append_left_eq_self.mp rest
    rfl
  | cons item front ih =>
    obtain ⟨e, next, following⟩ := firstFrom_cons.mp h
    obtain ⟨⟨rest, left, -⟩, -⟩ := firstFrom_reaches following
    obtain ⟨first, others⟩ := List.forall_mem_cons.mp steady
    obtain ⟨gap, piece, rfl, between, span, rfl, stands⟩ := exists_stands_of_next next first left
    obtain ⟨statement, place⟩ := item
    obtain rfl : place = _ := span
    have assoc (more : List Char) : before ++ (gap ++ (piece ++ rest) ++ more) =
        before ++ gap ++ piece ++ (rest ++ more) := by
      simp only [List.append_assoc]
    rw [assoc] at following others
    have behind := ih following others
    have short : piece.length ≤ (before ++ (gap ++ (piece ++ rest) ++ other)).length := by
      simp only [List.length_append]
      omega
    have here := stands.nextItem? short between (byteSize before) (rest ++ other)
    refine firstFrom_cons.mpr ⟨⟨byteSize (before ++ gap ++ piece), rest ++ other⟩, ?_, ?_⟩
    · rw [← List.append_assoc piece rest other, ← List.append_assoc gap (piece ++ rest) other,
        ← byteSize_append before gap, ← byteSize_append (before ++ gap) piece] at here
      exact here
    · rw [assoc]
      exact behind

/-- So are the first statements of a module. -/
theorem firstItems?_steady {other : List Char}
    (h : firstItems? l (before ++ behind) front.length = some (front, ⟨byteSize before, behind⟩))
    (steady : ∀ item ∈ front, item.Steady l (before ++ behind))
    (noBang : front = [] → hashBangItem? (before ++ other) = none)
    (feed : ∀ span, front = [⟨.hashBang, span⟩] → ∀ c ∈ other.head?, c = '\n') :
    firstItems? l (before ++ other) front.length = some (front, ⟨byteSize before, other⟩) := by
  unfold firstItems? at h
  split at h
  · next none =>
    have h' : firstFrom (Scope.of l ([] ++ (before ++ behind))) front.length
        ⟨byteSize [], before ++ behind⟩ = some (front, ⟨byteSize before, behind⟩) := h
    have none' : hashBangItem? (before ++ other) = Option.none := by
      cases front with
      | nil => exact noBang rfl
      | cons item front =>
        obtain ⟨e, next, following⟩ := firstFrom_cons.mp h'
        obtain ⟨⟨rest, left, -⟩, -⟩ := firstFrom_reaches following
        obtain ⟨gap, piece, rfl, between, -, -, stands⟩ :=
          exists_stands_of_next next (steady item List.mem_cons_self) left
        rw [List.append_assoc, List.append_assoc]
        exact hashBangItem?_of_stands stands between _
    simp only [firstItems?, none']
    exact firstFrom_steady h' steady other
  · cases h
  · next bang stop n found size =>
    obtain ⟨⟨items, e⟩, first, same⟩ := Option.map_eq_some_iff.mp h
    obtain ⟨rfl, rfl⟩ := Prod.mk.inj same
    obtain ⟨⟨line, whole, offset⟩, less, -, stops, statement⟩ := hashBangItem?_closes found
    simp only [Cursor.start, Nat.zero_add] at whole offset
    obtain rfl : items.length = n := Nat.succ.inj size
    obtain ⟨⟨here, left, -⟩, count⟩ := firstFrom_reaches first
    obtain rfl : before = line ++ here := by
      refine List.append_cancel_right (whole.trans ?_)
      rw [left, List.append_assoc]
    have place : stop = ⟨byteSize line, here ++ behind⟩ := by
      rw [← offset, ← left]
    rw [place, List.append_assoc] at found
    rw [place, List.append_assoc] at first
    have line_eq : bang = ⟨.hashBang, ⟨bang.span.start, byteSize line⟩⟩ := by
      obtain ⟨_, _, _⟩ := bang
      rw [← offset, stops, ← statement]
    have feed' : ∀ c ∈ (here ++ other).head?, c = '\n' := by
      have atLine := feed_of_hashBangItem? found
      cases here with
      | nil =>
        rw [left, List.nil_append] at count
        obtain rfl : items = [] := List.eq_nil_of_length_eq_zero (by omega)
        exact feed _ (by rw [line_eq])
      | cons c here => exact atLine
    have again := hashBangItem?_goesOn found List.not_mem_nil feed'
    rw [List.append_nil, List.nil_append, ← List.append_assoc, ← line_eq] at again
    rw [List.append_assoc] at steady
    have others := firstFrom_steady first (fun item there => steady item (.tail _ there)) other
    rw [List.append_assoc] at again ⊢
    simp only [firstItems?, again, List.length_cons, others, Option.map_some]

end

end ModuleRepair.Script
