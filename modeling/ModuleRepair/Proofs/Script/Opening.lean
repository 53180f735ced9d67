import ModuleRepair.Proofs.Script.Ends
import ModuleRepair.Proofs.Script.Moved
import ModuleRepair.Proofs.Script.Sits

/-!
# The first statements of a module

A module is read statement by statement, so it can be read in two parts: its first statements
(`firstItems?`), and the others from the place behind them (`items?_append`).
-/
namespace ModuleRepair.Script

open ModuleRepair.Text

/-- The statement behind the gap here, and the place behind it. -/
def nextItem? (s : Scope) (c : Cursor) : Option (Item × Cursor) :=
  let start := c.skipGap
  match statementHere s start with
  | none => none
  | some (statement, stop) =>
    if !start.rest.isEmpty ∧ start.offset < stop.offset then
      some (⟨statement, ⟨start.offset, stop.offset⟩⟩, stop)
    else none

/-- The first statements from a place on, as many as the argument says, and the place behind
them. -/
def firstFrom (s : Scope) : Nat → Cursor → Option (List Item × Cursor)
  | 0, c => some ([], c)
  | n + 1, c => do
    let (item, stop) ← nextItem? s c
    let (items, behind) ← firstFrom s n stop
    return (item :: items, behind)

/-- The line that names an interpreter, if a module starts with one, and the place behind it. -/
def hashBangItem? (text : List Char) : Option (Item × Cursor) :=
  let start := (Cursor.start text).skipGap
  (start.token? hashBang?).map fun stop => (⟨.hashBang, ⟨start.offset, stop.offset⟩⟩, stop)

/-- The first statements of a module, as many as the argument says, and the place behind them. The
line that names an interpreter is always one of them. -/
def firstItems? (language : Language) (text : List Char) (n : Nat) : Option (List Item × Cursor) :=
  let s := Scope.of language text
  match hashBangItem? text, n with
  | none, n => firstFrom s n (Cursor.start text)
  | some _, 0 => none
  | some (item, stop), n + 1 => (firstFrom s n stop).map fun (items, behind) =>
      (item :: items, behind)

/-! ## Places -/

theorem Cursor.advance_add (m n : Nat) (c : Cursor) :
    c.advance (m + n) = (c.advance m).advance n := by
  induction m generalizing c with
  | zero => rw [Nat.zero_add, advance]
  | succ m ih =>
    obtain ⟨offset, rest⟩ := c
    rw [Nat.succ_add]
    cases rest with
    | nil =>
      cases n <;> rfl
    | cons a rest => exact ih _

/-- A gap in front of a gap is part of it. -/
theorem Cursor.skipGap_append {g s : List Char} (h : gapLength (g ++ s) = g.length + gapLength s)
    (offset : Nat) :
    Cursor.skipGap ⟨offset, g ++ s⟩ = Cursor.skipGap ⟨offset + byteSize g, s⟩ := by
  rw [skipGap, h, advance_add, advance_append]
  rfl

theorem Cursor.gapLength_skipGap (c : Cursor) : gapLength c.skipGap.rest = 0 := by
  rw [skipGap, advance_rest]
  exact gapLength_drop c.rest

theorem Cursor.skipGap_skipGap (c : Cursor) : c.skipGap.skipGap = c.skipGap := by
  rw [skipGap, gapLength_skipGap]
  rfl

/-- Behind a gap stands no blank. -/
theorem Cursor.isSpace_skipGap {c : Cursor} {x : Char} {rest : List Char}
    (h : c.skipGap.rest = x :: rest) : isSpace x = false := by
  have none := c.gapLength_skipGap
  by_contra space
  have notSlash : x ≠ '/' := by
    rintro rfl
    exact space rfl
  have blank : gapState .blank [x] = some .blank := by
    rw [gapState_blank notSlash, if_pos (by simpa using space)]
    rfl
  have count := gapLength_append blank rest
  rw [h] at none
  rw [List.singleton_append, none, List.length_singleton] at count
  omega

/-- The gap in front of something. -/
theorem Cursor.exists_gap {c : Cursor} (there : c.skipGap.rest ≠ []) : ∃ gap,
    c.rest = gap ++ c.skipGap.rest ∧ c.skipGap.offset = c.offset + byteSize gap ∧
      gapState .blank gap = some .blank := by
  obtain ⟨gap, rest, offset⟩ : c.Reaches c.skipGap := .advance _ c
  have dropped : c.skipGap.rest = c.rest.drop (gapLength c.rest) := advance_rest _ c
  have total := congrArg List.length rest
  have left := congrArg List.length dropped
  have some := List.length_pos_iff.mpr there
  rw [List.length_append] at total
  rw [List.length_drop] at left
  have count : gapScan .blank 0 0 (gap ++ c.skipGap.rest) = 0 + gap.length := by
    change gapLength (gap ++ c.skipGap.rest) = _
    rw [← rest]
    omega
  exact ⟨gap, rest, offset, gapState_of_gapScan there nofun count⟩

/-! ## From a place on -/

section

variable {s : Scope} {n m : Nat} {c d : Cursor} {item : Item} {items front back : List Item}

theorem nextItem?_eq_some (h : nextItem? s c = some (item, d)) : ∃ statement,
    statementHere s c.skipGap = some (statement, d) ∧ c.skipGap.offset < d.offset ∧
    c.skipGap.rest ≠ [] ∧ item = ⟨statement, ⟨c.skipGap.offset, d.offset⟩⟩ := by
  simp only [nextItem?] at h
  split at h
  · cases h
  · next statement stop read =>
    split at h
    · next progress =>
      cases h
      exact ⟨statement, read, progress.2, by simpa using progress.1, rfl⟩
    · cases h

/-- Reading a module is reading the next statement, and the others behind it. -/
theorem itemsFrom_cons : itemsFrom s (n + 1) c = some (item :: items) ↔
    ∃ d, nextItem? s c = some (item, d) ∧ itemsFrom s n d = some items := by
  simp only [itemsFrom, nextItem?]
  cases there : c.skipGap.rest.isEmpty with
  | true => cases statementHere s c.skipGap <;> simp
  | false =>
    cases statementHere s c.skipGap with
    | none => simp
    | some pair =>
      obtain ⟨statement, stop⟩ := pair
      dsimp only
      by_cases progress : c.skipGap.offset < stop.offset
      · rw [if_neg Bool.false_ne_true, if_pos progress, if_pos ⟨rfl, progress⟩,
          Option.map_eq_some_iff]
        constructor
        · rintro ⟨rest, following, same⟩
          obtain ⟨rfl, rfl⟩ := List.cons.inj same
          exact ⟨stop, rfl, following⟩
        · rintro ⟨d, same, following⟩
          obtain ⟨rfl, rfl⟩ := Prod.mk.inj (Option.some.inj same)
          exact ⟨items, following, rfl⟩
      · simp [progress]

theorem firstFrom_cons : firstFrom s (n + 1) c = some (item :: items, d) ↔
    ∃ e, nextItem? s c = some (item, e) ∧ firstFrom s n e = some (items, d) := by
  simp [firstFrom, Option.bind_eq_some_iff]

/-- Reading goes on behind the first statements. -/
theorem itemsFrom_append : itemsFrom s n c = some (front ++ back) ↔
    ∃ d, firstFrom s front.length c = some (front, d) ∧
      itemsFrom s (n - front.length) d = some back := by
  induction front generalizing n c with
  | nil => simp [firstFrom]
  | cons item front ih =>
    cases n with
    | zero => simp [itemsFrom]
    | succ n =>
      simp only [List.cons_append, List.length_cons, Nat.add_sub_add_right, itemsFrom_cons,
        firstFrom_cons, ih]
      constructor
      · rintro ⟨e, next, d, first, rest⟩
        exact ⟨d, ⟨e, next, first⟩, rest⟩
      · rintro ⟨d, ⟨e, next, first⟩, rest⟩
        exact ⟨e, next, d, first, rest⟩

/-- The first statements take a piece of the text, at least one character each. -/
theorem firstFrom_reaches (h : firstFrom s items.length c = some (items, d)) :
    c.Reaches d ∧ items.length + d.rest.length ≤ c.rest.length := by
  induction items generalizing c with
  | nil =>
    obtain rfl : c = d := congrArg Prod.snd (Option.some.inj h)
    exact ⟨.refl c, by simp⟩
  | cons item items ih =>
    obtain ⟨e, next, following⟩ := firstFrom_cons.mp h
    obtain ⟨statement, read, progress, -, -⟩ := nextItem?_eq_some next
    obtain ⟨reached, count⟩ := ih following
    have through : c.skipGap.Reaches e := statementHere_forward s _ _ _ read
    have before : c.Reaches c.skipGap := .advance _ c
    have less := through.length_lt progress
    have behind := before.length_le
    exact ⟨(before.trans through).trans reached, by rw [List.length_cons]; omega⟩

/-- The first statements end where something of them can be seen. -/
theorem firstFrom_closes (h : firstFrom s items.length c = some (items, d)) :
    c.Closes lineBreaks false d := by
  induction items generalizing c with
  | nil =>
    obtain rfl : c = d := congrArg Prod.snd (Option.some.inj h)
    exact .refl c
  | cons item items ih =>
    obtain ⟨e, next, following⟩ := firstFrom_cons.mp h
    obtain ⟨statement, read, -, -, -⟩ := nextItem?_eq_some next
    have here : c.skipGap.Closes lineBreaks true e := statementHere_ends s _ _ _ read
    exact (Cursor.Closes.of_reaches (.advance _ c) here).trans (ih following)

/-- The first statements end where the last one of them does. -/
theorem firstFrom_offset (h : firstFrom s items.length c = some (items, d)) :
    d.offset = (items.getLast?.map (·.span.stop)).getD c.offset := by
  induction items generalizing c with
  | nil =>
    obtain rfl : c = d := congrArg Prod.snd (Option.some.inj h)
    rfl
  | cons item items ih =>
    obtain ⟨e, next, following⟩ := firstFrom_cons.mp h
    obtain ⟨statement, -, -, -, rfl⟩ := nextItem?_eq_some next
    rw [ih following]
    cases items with
    | nil => rfl
    | cons item items => simp [List.getLast?_eq_some_getLast]

/-- Whether a statement lies between two places, with what it declares. -/
structure Item.Inside (c d : Cursor) (item : Item) : Prop where
  span : item.span.Between c d
  declared : ∀ x ∈ item.statement.declared?, x.span.Between c d

theorem Item.Inside.mono {c' d' : Cursor} (before : c'.Reaches c) (behind : d.Reaches d')
    (h : item.Inside c d) : item.Inside c' d' where
  span := h.span.mono before behind
  declared x there := (h.declared x there).mono before behind

/-- The first statements lie in front of the place behind them. -/
theorem firstFrom_inside (h : firstFrom s items.length c = some (items, d)) :
    ∀ item ∈ items, item.Inside c d := by
  induction items generalizing c with
  | nil => nofun
  | cons item items ih =>
    obtain ⟨e, next, following⟩ := firstFrom_cons.mp h
    obtain ⟨statement, read, -, -, rfl⟩ := nextItem?_eq_some next
    have before : c.Reaches c.skipGap := .advance _ c
    have through : c.skipGap.Reaches e := statementHere_forward s _ _ _ read
    have behind : e.Reaches d := (firstFrom_reaches following).1
    have here : Item.Inside c.skipGap e ⟨statement, ⟨c.skipGap.offset, e.offset⟩⟩ :=
      ⟨⟨_, _, .refl _, through, .refl _, rfl⟩, (statementHere_sits s _ _ _ read).declared⟩
    exact List.forall_mem_cons.mpr ⟨here.mono before behind,
      fun other there => (ih following other there).mono (before.trans through) (.refl d)⟩

/-- Reading depends on where the first statement starts, not on the gap in front of it. -/
theorem itemsFrom_congr (h : c.skipGap = d.skipGap) : itemsFrom s n c = itemsFrom s n d := by
  cases n with
  | zero => rfl
  | succ n => simp only [itemsFrom, h]

/-- No statement is a line that names an interpreter. -/
theorem itemsFrom_head (h : itemsFrom s n c = some items) :
    ∀ item ∈ items.head?, item.statement ≠ .hashBang := by
  rintro item there
  obtain ⟨rest, rfl⟩ := List.head?_eq_some_iff.mp there
  cases n with
  | zero => cases h
  | succ n =>
    obtain ⟨d, next, -⟩ := itemsFrom_cons.mp h
    obtain ⟨statement, read, -, -, rfl⟩ := nextItem?_eq_some next
    exact (statementHere_sits s _ _ _ read).ne_hashBang

/-- There are no more statements than characters. -/
theorem itemsFrom_enough (enough : c.rest.length < n) (enough' : c.rest.length < m) :
    itemsFrom s n c = itemsFrom s m c := by
  induction n generalizing m c with
  | zero => exact absurd enough (Nat.not_lt_zero _)
  | succ n ih =>
    obtain ⟨m, rfl⟩ : ∃ k, m = k + 1 := ⟨m - 1, by omega⟩
    have behind : c.skipGap.rest.length ≤ c.rest.length :=
      (Cursor.Reaches.advance (gapLength c.rest) c).length_le
    simp only [itemsFrom]
    cases read : statementHere s c.skipGap with
    | none => rfl
    | some pair =>
      dsimp only
      by_cases progress : c.skipGap.offset < pair.2.offset
      · have through : c.skipGap.Reaches pair.2 := statementHere_forward s _ _ _ read
        have less := through.length_lt progress
        have rest : itemsFrom s n pair.2 = itemsFrom s m pair.2 := ih (by omega) (by omega)
        rw [if_pos progress, if_pos progress, rest]
      · rw [if_neg progress, if_neg progress]

/-- Reading goes on behind the first statements, with any count that is large enough. -/
theorem itemsFrom_append_enough (enough : c.rest.length < n) :
    itemsFrom s n c = some (front ++ back) ↔
      ∃ d, firstFrom s front.length c = some (front, d) ∧
        ∃ m, d.rest.length < m ∧ itemsFrom s m d = some back := by
  rw [itemsFrom_append]
  constructor
  · rintro ⟨d, first, rest⟩
    have count := (firstFrom_reaches first).2
    exact ⟨d, first, n - front.length, by omega, rest⟩
  · rintro ⟨d, first, m, enough', rest⟩
    have count := (firstFrom_reaches first).2
    have left : d.rest.length < n - front.length := by omega
    exact ⟨d, first, (itemsFrom_enough left enough').trans rest⟩

end

/-! ## From the start on -/

section

variable {l : Language} {text : List Char} {n : Nat} {c d : Cursor} {items front back : List Item}

/-- The line that names an interpreter reaches to the next line feed. -/
theorem hashBang?_eq_some {s : List Char} (h : hashBang? s = some n) :
    ∃ line, s.take n = '#' :: '!' :: line ∧ '\n' ∉ line ∧ ∀ c ∈ (s.drop n).head?, c = '\n' := by
  unfold hashBang? at h
  split at h
  · next rest =>
    obtain rfl := Option.some.inj h
    have whole := List.takeWhile_append_dropWhile (p := (· != '\n')) (l := rest)
    have cut : '#' :: '!' :: rest = '#' :: '!' :: rest.takeWhile (· != '\n') ++
        rest.dropWhile (· != '\n') := by rw [List.cons_append, List.cons_append, whole]
    have length : 2 + (rest.takeWhile (· != '\n')).length =
        ('#' :: '!' :: rest.takeWhile (· != '\n')).length := Nat.add_comm ..
    rw [cut, length, List.take_left, List.drop_left]
    refine ⟨_, rfl, fun there => by simpa using List.mem_takeWhile_imp there, fun c there => ?_⟩
    have stops := List.head?_dropWhile_not (· != '\n') rest
    rw [there] at stops
    simpa using stops
  · cases h

theorem hashBang_shown {s : List Char} (h : hashBang? s = some n) : Shown ['\n'] (s.take n) := by
  obtain ⟨line, taken, unbroken, -⟩ := hashBang?_eq_some h
  have unbroken' : ∀ c ∈ '#' :: '!' :: line, c ∉ ['\n'] := by
    intro c there feed
    rw [List.mem_singleton.mp feed] at there
    simp [unbroken] at there
  exact ⟨[], _, taken, unbroken', '#', List.mem_cons_self, rfl⟩

theorem hashBangItem?_closes {item : Item} (h : hashBangItem? text = some (item, d)) :
    (Cursor.start text).Reaches d ∧ d.rest.length < text.length ∧
      (Cursor.start text).Closes ['\n'] false d ∧ d.offset = item.span.stop ∧
      item.statement = .hashBang := by
  obtain ⟨stop, token, ⟨⟩⟩ := Option.map_eq_some_iff.mp h
  have before : (Cursor.start text).Reaches (Cursor.start text).skipGap := .advance _ _
  have closes : (Cursor.start text).skipGap.Closes ['\n'] true d := by
    obtain ⟨n, measured, rfl⟩ := Option.map_eq_some_iff.mp token
    exact .advance (.inl (hashBang_shown measured))
  have takes : Pattern.Takes (.token hashBang? : Shape) := by
    refine ⟨rfl, fun s zero => ?_⟩
    unfold hashBang? at zero
    split at zero
    · exact absurd (Option.some.inj zero) (by omega)
    · cases zero
  have less := Pattern.token?_lt takes token
  have behind : (Cursor.start text).skipGap.rest.length ≤ text.length := before.length_le
  exact ⟨before.trans (.token token), by omega, .of_reaches before closes, rfl, rfl⟩

theorem hashBangItem?_inside {item : Item} (h : hashBangItem? text = some (item, d)) :
    item.Inside (.start text) d := by
  obtain ⟨stop, token, ⟨⟩⟩ := Option.map_eq_some_iff.mp h
  exact ⟨⟨_, _, .advance _ _, .token token, .refl _, rfl⟩, nofun⟩

/-- The first statements of a module lie in front of the place behind them. -/
theorem firstItems?_inside (h : firstItems? l text front.length = some (front, d)) :
    ∀ item ∈ front, item.Inside (.start text) d := by
  unfold firstItems? at h
  split at h
  · exact firstFrom_inside h
  · cases h
  · next item stop n bang size =>
    obtain ⟨⟨items, behind⟩, first, ⟨⟩⟩ := Option.map_eq_some_iff.mp h
    obtain rfl : items.length = n := Nat.succ.inj size
    have through : Cursor.Reaches (.start text) stop := (hashBangItem?_closes bang).1
    have behind : stop.Reaches d := (firstFrom_reaches first).1
    exact List.forall_mem_cons.mpr ⟨(hashBangItem?_inside bang).mono (.refl _) behind,
      fun other there => (firstFrom_inside first other there).mono through (.refl d)⟩

/-- The first statements of a module take a piece of its text, and end where something of them can
be seen. -/
theorem firstItems?_closes (h : firstItems? l text front.length = some (front, d)) :
    (Cursor.start text).Reaches d ∧ front.length + d.rest.length ≤ text.length ∧
      (Cursor.start text).Closes ['\n'] false d ∧
      d.offset = (front.getLast?.map (·.span.stop)).getD 0 := by
  have feeds : ['\n'] ⊆ lineBreaks := by decide
  unfold firstItems? at h
  split at h
  · have reached := firstFrom_reaches h
    exact ⟨reached.1, reached.2, (firstFrom_closes h).mono feeds, firstFrom_offset h⟩
  · cases h
  · next item stop n bang size =>
    obtain ⟨⟨items, behind⟩, first, ⟨⟩⟩ := Option.map_eq_some_iff.mp h
    obtain rfl : items.length = n := Nat.succ.inj size
    obtain ⟨reached, count, closes, offset, -⟩ := hashBangItem?_closes bang
    obtain ⟨reached', count'⟩ := firstFrom_reaches first
    refine ⟨reached.trans reached', ?_, closes.trans ((firstFrom_closes first).mono feeds), ?_⟩
    · rw [List.length_cons]
      omega
    · rw [firstFrom_offset first, offset]
      cases items with
      | nil => rfl
      | cons item items => simp [List.getLast?_eq_some_getLast]

/-- The place behind the first statements is the same in a text that goes on in another way. -/
theorem firstItems?_place {before after rest : List Char}
    (h : firstItems? l (before ++ after) front.length = some (front, ⟨byteSize before, after⟩))
    (h' : firstItems? l (before ++ rest) front.length = some (front, d)) :
    d = ⟨byteSize before, rest⟩ := by
  obtain ⟨-, -, -, offset⟩ := firstItems?_closes h
  obtain ⟨⟨taken, whole, start⟩, -, -, offset'⟩ := firstItems?_closes h'
  have here : d.offset = byteSize before := offset'.trans offset.symm
  have size : byteSize before = byteSize taken := by simpa [Cursor.start, here] using start
  have behind := (append_inj_byteSize whole size).2
  rw [behind, ← here]

theorem items?_eq (l : Language) (text : List Char) : items? l text =
    match hashBangItem? text with
    | some (item, stop) =>
      (itemsFrom (Scope.of l text) (Scope.of l text).fuel stop).map (item :: ·)
    | none => itemsFrom (Scope.of l text) (Scope.of l text).fuel (Cursor.start text) := by
  simp only [items?, hashBangItem?]
  cases (Cursor.start text).skipGap.token? hashBang? with
  | none => exact itemsFrom_congr (Cursor.skipGap_skipGap _)
  | some stop => rfl

/-- A module is read in two parts. -/
theorem items?_append (plain : front = [] → hashBangItem? text = none) :
    items? l text = some (front ++ back) ↔
      ∃ d, firstItems? l text front.length = some (front, d) ∧
        ∃ m, d.rest.length < m ∧ itemsFrom (Scope.of l text) m d = some back := by
  have fuel : text.length < (Scope.of l text).fuel := by
    show text.length < 200 * (text.length + 10)
    omega
  rw [items?_eq]
  cases bang : hashBangItem? text with
  | none =>
    have first : firstItems? l text front.length =
        firstFrom (Scope.of l text) front.length (Cursor.start text) := by
      simp [firstItems?, bang]
    rw [first]
    exact itemsFrom_append_enough fuel
  | some pair =>
    obtain ⟨item, stop⟩ := pair
    have count := (hashBangItem?_closes bang).2.1
    cases front with
    | nil =>
      rw [plain rfl] at bang
      cases bang
    | cons item' front =>
      have rest : itemsFrom (Scope.of l text) (Scope.of l text).fuel stop = some (front ++ back) ↔
          ∃ d, firstFrom (Scope.of l text) front.length stop = some (front, d) ∧
            ∃ m, d.rest.length < m ∧ itemsFrom (Scope.of l text) m d = some back :=
        itemsFrom_append_enough (Nat.lt_trans count fuel)
      simp [firstItems?, bang, rest]
      exact ⟨fun ⟨⟨d, first, behind⟩, same⟩ => ⟨d, ⟨first, same⟩, behind⟩,
        fun ⟨d, ⟨first, same⟩, behind⟩ => ⟨⟨d, first, behind⟩, same⟩⟩

theorem hashBangItem?_of_first (h : firstItems? l text 0 = some (items, d)) :
    hashBangItem? text = none := by
  unfold firstItems? at h
  split at h
  · next none => exact none
  · cases h
  · next size => cases size

theorem hashBangItem?_of_items (h : items? l text = some items)
    (plain : ∀ item ∈ items.head?, item.statement ≠ .hashBang) : hashBangItem? text = none := by
  rw [items?_eq] at h
  split at h
  · next first stop bang =>
    obtain ⟨rest, -, rfl⟩ := Option.map_eq_some_iff.mp h
    exact absurd (hashBangItem?_closes bang).2.2.2.2 (plain first rfl)
  · next none => exact none

/-- Only the first statement of a module can be a line that names an interpreter. -/
theorem eq_nil_of_hashBang {item : Item} (h : items? l text = some (front ++ item :: back))
    (bang : item.statement = .hashBang) : front = [] := by
  by_contra some
  obtain ⟨d, -, m, -, rest⟩ := (items?_append (absurd · some)).mp h
  exact itemsFrom_head rest item rfl bang

/-- A statement of a module is the next one behind those in front of it. -/
theorem exists_nextItem {item : Item} (h : items? l text = some (front ++ item :: back))
    (plain : item.statement ≠ .hashBang) : ∃ c m d,
      firstItems? l text front.length = some (front, c) ∧ c.rest.length < m + 1 ∧
      nextItem? (Scope.of l text) c = some (item, d) ∧
      itemsFrom (Scope.of l text) m d = some back := by
  have noBang : front = [] → hashBangItem? text = none := by
    rintro rfl
    exact hashBangItem?_of_items h (by simpa using plain)
  obtain ⟨c, first, m, count, rest⟩ := (items?_append noBang).mp h
  obtain ⟨m, rfl⟩ : ∃ k, m = k + 1 := ⟨m - 1, by omega⟩
  obtain ⟨d, next, behind⟩ := itemsFrom_cons.mp rest
  exact ⟨c, m, d, first, count, next, behind⟩

/-- Every statement of a module is read behind a gap. -/
theorem exists_statementHere {item : Item} (h : items? l text = some items) (there : item ∈ items)
    (plain : item.statement ≠ .hashBang) : ∃ c d : Cursor, (Cursor.start text).Reaches c.skipGap ∧
      statementHere (Scope.of l text) c.skipGap = some (item.statement, d) ∧
      item.span = ⟨c.skipGap.offset, d.offset⟩ := by
  obtain ⟨front, back, rfl⟩ := List.append_of_mem there
  obtain ⟨c, -, d, first, -, next, -⟩ := exists_nextItem h plain
  obtain ⟨statement, read, -, -, rfl⟩ := nextItem?_eq_some next
  exact ⟨c, d, (firstItems?_closes first).1.trans (.advance _ c), read, rfl⟩

/-- The statements of a module take pieces of its text, only the line that names an interpreter
could be empty. -/
theorem items?_filled {item : Item} (h : items? l text = some items) (there : item ∈ items)
    (plain : item.statement ≠ .hashBang) : item.span.start < item.span.stop := by
  obtain ⟨front, back, rfl⟩ := List.append_of_mem there
  obtain ⟨c, -, d, -, -, next, -⟩ := exists_nextItem h plain
  obtain ⟨statement, -, progress, -, rfl⟩ := nextItem?_eq_some next
  exact progress

end

end ModuleRepair.Script
