import ModuleRepair.Proofs.Script.Reading

/-!
# Readers go forward

Whatever a reader takes, it takes from the front of the text, character by character: between the
place where it starts and the one where it stops lies a piece of the text, as long as the offsets
say (`Cursor.Reaches`). So the statements of a module lie behind one another (`itemsFrom_behind`),
and each starts and stops between two characters.
-/
namespace ModuleRepair.Script

open ModuleRepair.Text

/-- Whether a place lies behind another one of the same text. -/
def Cursor.Reaches (c d : Cursor) : Prop :=
  ∃ taken, c.rest = taken ++ d.rest ∧ d.offset = c.offset + byteSize taken

namespace Cursor.Reaches

theorem refl (c : Cursor) : c.Reaches c :=
  ⟨[], rfl, rfl⟩

theorem trans {c d e : Cursor} (first : c.Reaches d) (second : d.Reaches e) : c.Reaches e := by
  obtain ⟨s, rest, offset⟩ := first
  obtain ⟨t, rest', offset'⟩ := second
  refine ⟨s ++ t, ?_, ?_⟩
  · rw [rest, rest', List.append_assoc]
  · rw [offset', offset, byteSize_append, Nat.add_assoc]

theorem offset_le {c d : Cursor} (h : c.Reaches d) : c.offset ≤ d.offset := by
  obtain ⟨taken, -, offset⟩ := h
  omega

theorem advance (n : Nat) (c : Cursor) : c.Reaches (c.advance n) := by
  induction n generalizing c with
  | zero => exact refl c
  | succ n ih =>
    obtain ⟨offset, rest⟩ := c
    cases rest with
    | nil => exact refl _
    | cons a rest =>
      have one : Cursor.Reaches ⟨offset, a :: rest⟩ ⟨offset + a.utf8Size, rest⟩ :=
        ⟨[a], rfl, by simp⟩
      exact one.trans (ih ⟨offset + a.utf8Size, rest⟩)

theorem token {measure : List Char → Option Nat} {c d : Cursor} (h : c.token? measure = some d) :
    c.Reaches d := by
  obtain ⟨n, -, rfl⟩ := Option.map_eq_some_iff.mp h
  exact advance n c

/-- What a pattern matches lies in front of the place behind it. -/
theorem run {ρ : Type} {grammar : ρ → Pattern ρ} {fuel : Nat} {p : Pattern ρ} {c d : Cursor}
    (h : p.run grammar fuel c = some d) : c.Reaches d := by
  induction fuel generalizing p c d with
  | zero => cases h
  | succ fuel ih =>
    cases p with
    | done =>
      obtain rfl := Option.some.inj h
      exact refl c
    | token measure => exact token h
    | both p q =>
      simp only [Pattern.run] at h
      split at h
      · next e first => exact (ih first).trans (ih h)
      · cases h
    | either p q =>
      simp only [Pattern.run] at h
      split at h
      · next e first =>
        obtain rfl := Option.some.inj h
        exact ih first
      · exact ih h
    | many p =>
      simp only [Pattern.run] at h
      split at h
      · next e first => exact (ih first).trans (ih h)
      · obtain rfl := Option.some.inj h
        exact refl c
    | absent p =>
      simp only [Pattern.run] at h
      split at h
      · cases h
      · obtain rfl := Option.some.inj h
        exact refl c
    | rule name => exact ih h

end Cursor.Reaches

/-! ## Readers -/

/-- A reader that stops behind the place where it starts. -/
def Forward {α : Type} (r : Reader α) : Prop :=
  ∀ c a d, r c = some (a, d) → c.Reaches d

namespace Forward

variable {α β : Type} {r q : Reader α}

theorem bind {f : α → Reader β} (first : Forward r) (second : ∀ a, Forward (f a)) :
    Forward (r >>= f) := by
  intro c b d h
  rw [Reader.bind_apply] at h
  split at h
  · cases h
  · next a e read => exact (first c a e read).trans (second a e b d h)

theorem or (first : Forward r) (second : Forward q) : Forward (r <|> q) := by
  intro c a d h
  change (r c <|> q c) = _ at h
  cases read : r c with
  | none => exact second c a d (by simpa [read] using h)
  | some pair => exact first c a d (by simpa [read] using h)

theorem pure (a : α) : Forward (Pure.pure a : Reader α) := by
  rintro c b d ⟨⟩
  exact .refl c

theorem failure : Forward (Alternative.failure : Reader α) :=
  fun _ _ _ => nofun

theorem get : Forward (MonadState.get : Reader Cursor) := by
  rintro c a d ⟨⟩
  exact .refl c

theorem lift (value : Option α) : Forward (liftM value : Reader α) := by
  cases value with
  | none => exact fun _ _ _ => nofun
  | some a =>
    rintro c b d ⟨⟩
    exact .refl c

theorem only (holds : Bool) (h : Forward r) : Forward (Reader.only holds r) := by
  cases holds with
  | false => exact failure
  | true => exact h

theorem skip (measure : List Char → Option Nat) : Forward (Reader.skip measure) := by
  intro c a d h
  obtain ⟨e, token, ⟨⟩⟩ := Option.map_eq_some_iff.mp h
  exact .token token

theorem text (measure : List Char → Option Nat) : Forward (Reader.text measure) := by
  intro c a d h
  obtain ⟨n, -, ⟨⟩⟩ := Option.map_eq_some_iff.mp h
  exact .advance n c

theorem gap : Forward Reader.gap := by
  rintro c a d ⟨⟩
  exact .advance _ c

theorem pass (s : Scope) (p : Shape) : Forward (Reader.pass s p) := by
  intro c a d h
  obtain ⟨e, matched, ⟨⟩⟩ := Option.map_eq_some_iff.mp h
  exact .run matched

theorem slice (s : Scope) (p : Shape) : Forward (Reader.slice s p) := by
  intro c a d h
  obtain ⟨e, matched, ⟨⟩⟩ := Option.map_eq_some_iff.mp h
  exact .run matched

theorem offset : Forward Reader.offset := by
  rintro c a d ⟨⟩
  exact .refl c

/-- A step that takes nothing for its result. -/
theorem andPure (f : α → β) (h : Forward r) : Forward (r >>= fun a => Pure.pure (f a)) :=
  h.bind fun a => pure (f a)

theorem keyword (k : String) : Forward (Reader.keyword k) := skip _

theorem symbol (k : String) : Forward (Reader.symbol k) := skip _

theorem close (s : Scope) (operand : Bool) : Forward (Reader.close s operand) := skip _

theorem link (s : Scope) (operand : Bool) : Forward (Reader.link s operand) := skip _

end Forward

/-! ## Clauses -/

section

variable (s : Scope)

theorem entryWords_forward (n : Nat) : Forward (entryWords n) := by
  induction n with
  | zero => exact .pure []
  | succ n ih =>
    refine .or ?_ (.pure [])
    exact .bind .gap fun _ => .bind (.or (.text _) (.text _)) fun w => ih.andPure (w :: ·)

theorem entries_forward (n : Nat) : Forward (entries n) := by
  induction n with
  | zero => exact .failure
  | succ n ih =>
    refine .or (.bind .gap fun _ => .bind (.symbol _) fun _ => .pure []) ?_
    refine .bind (entryWords_forward 4) fun entry => .bind .gap fun _ => .or ?_ ?_
    · exact .bind (.symbol _) fun _ => ih.andPure (entry :: ·)
    · exact .bind (.symbol _) fun _ => .pure [entry]

theorem braced_forward : Forward (braced s) :=
  .bind (.symbol _) fun _ => entries_forward s.fuel

theorem importedBindings_forward : Forward (importedBindings s) := by
  refine .or ?_ ?_
  · refine .bind (.symbol _) fun _ => .bind .gap fun _ => .bind (.keyword _) fun _ => ?_
    exact .bind .gap fun _ => .bind (.text _) fun _ => .pure _
  · exact .bind (braced_forward s) fun _ => .bind (.lift _) fun _ => .pure _

theorem importClause_forward : Forward (importClause s) := by
  refine .or (.bind (importedBindings_forward s) fun _ => .pure _) ?_
  refine .bind (.text _) fun _ => .or ?_ (.pure _)
  refine .bind .gap fun _ => .bind (.symbol _) fun _ => .bind .gap fun _ => ?_
  exact .bind (importedBindings_forward s) fun _ => .pure _

theorem fromClause_forward : Forward fromClause :=
  .bind .gap fun _ => .bind (.keyword _) fun _ => .bind .gap fun _ => .text _

theorem attributes_forward : Forward (attributes s) :=
  .or (.bind (.link s _) fun _ => .bind (.slice s _) fun _ => .pure _) (.pure none)

theorem typeMark_forward : Forward (typeMark s) := by
  refine .or ?_ (.pure false)
  refine .bind (.only _ (.or (.text _) (.text _))) fun mark => .bind .gap fun _ => ?_
  refine .bind .get fun c => ?_
  split
  · exact .bind .failure fun _ => .pure _
  · exact .bind (.pure _) fun _ => .pure _

theorem importAlias_forward : Forward (importAlias s) :=
  .only _ (.bind (.pass s _) fun _ => .bind (.pass s _) fun _ => .bind (.close s _) fun _ =>
    .pure _)

theorem endsWithSemicolon_forward (start : Cursor) : Forward (endsWithSemicolon start) := by
  rintro c a d ⟨⟩
  exact .refl c

theorem importStatement_forward : Forward (importStatement s) := by
  refine .bind .get fun start => .bind (.keyword _) fun _ => .bind .gap fun _ => ?_
  refine .or (importAlias_forward s) (.bind (.or ?_ ?_) fun parts => ?_)
  · exact .bind (.text _) fun _ => .pure _
  · refine .bind (typeMark_forward s) fun _ => .bind (importClause_forward s) fun _ => ?_
    exact .bind fromClause_forward fun _ => .pure _
  · refine .bind (attributes_forward s) fun _ => .bind (.close s _) fun _ => ?_
    exact .bind (endsWithSemicolon_forward start) fun _ => .pure _

theorem exportClause_forward : Forward (exportClause s) := by
  refine .bind (.or (.bind (.only _ (.keyword _)) fun _ => .gap) (.pure ())) fun _ => .or ?_ ?_
  · refine .bind (.symbol _) fun _ => .bind (.or ?_ (.pure none)) fun _ => ?_
    · refine .bind .gap fun _ => .bind (.keyword _) fun _ => .bind .gap fun _ => ?_
      exact .bind (.or (.text _) (.text _)) fun _ => .pure _
    · refine .bind fromClause_forward fun _ => .bind (attributes_forward s) fun _ => ?_
      exact .bind (.close s _) fun _ => .pure _
  · refine .bind (braced_forward s) fun _ => .bind (.lift _) fun _ => .bind (.or ?_ (.pure none))
      fun _ => .bind (.close s _) fun _ => .pure _
    exact .bind fromClause_forward fun _ => .bind (attributes_forward s) fun _ => .pure _

/-! ## Declarations -/

theorem trail_forward (standing : Standing) : Forward (trail s standing) := .skip _

theorem nameHere_forward : Forward nameHere := .bind .gap fun _ => .text _

theorem functionDeclared_forward (standing : Standing) : Forward (functionDeclared s standing) := by
  refine .bind (.or (.bind (.keyword _) fun _ => .link s _) (.pure ())) fun _ => ?_
  refine .bind (.keyword _) fun _ => .bind (.or ?_ (.pure false)) fun _ => ?_
  · exact .bind .gap fun _ => .bind (.symbol _) fun _ => .pure true
  · refine .bind nameHere_forward fun _ => .bind (.pass s _) fun _ => .or ?_ ?_
    · exact .bind (.pass s _) fun _ => .bind (trail_forward s standing) fun _ => .pure _
    · exact .bind (.only _ (.skip _)) fun _ => .pure _

theorem classDeclared_forward (standing : Standing) : Forward (classDeclared s standing) := by
  refine .bind (.pass s _) fun _ => .bind (.or ?_ (.pure false)) fun abstract => ?_
  · exact .bind (.only _ (.keyword _)) fun _ => .bind (.link s _) fun _ => .pure true
  · refine .bind (.keyword _) fun _ => .bind .gap fun _ => .bind (.pass s _) fun _ => ?_
    refine .bind (.text _) fun _ => .bind (.pass s _) fun _ => ?_
    split
    · exact .pure _
    · exact .bind (trail_forward s standing) fun _ => .pure _

theorem readDeclarators_forward (n : Nat) : Forward (readDeclarators s n) := by
  induction n with
  | zero => exact .failure
  | succ n ih =>
    refine .bind .gap fun _ => .bind (.or ?_ ?_) fun names => ?_
    · exact .bind (.text _) fun _ => .pure _
    · exact .bind (.pass s _) fun _ => .pure []
    · refine .bind (.pass s _) fun _ => .bind (.pass s _) fun _ => .bind (.or ?_ (.pure false))
        fun valued => .or ?_ (.pure _)
      · refine .bind .gap fun _ => .bind (.symbol _) fun _ => ?_
        exact .bind (.pass s _) fun _ => .pure true
      · exact .bind (.link s _) fun _ => .bind (.symbol _) fun _ => ih.bind fun _ => .pure _

theorem variableDeclared_forward : Forward (variableDeclared s) := by
  refine .bind (.or ?_ (.or ?_ ?_)) fun kind => ?_
  · exact .bind (.keyword _) fun _ => .pure _
  · exact .bind (.keyword _) fun _ => .pure _
  · exact .bind (.keyword _) fun _ => .bind (.link s _) fun _ => .pure _
  · exact .bind (readDeclarators_forward s s.fuel) fun _ => .bind (.close s _) fun _ => .pure _

theorem typedDeclared_forward (standing : Standing) : Forward (typedDeclared s standing) := by
  refine .only _ (.or ?_ (.or ?_ (.or ?_ (.or ?_ ?_))))
  · refine .bind (.keyword _) fun _ => .bind nameHere_forward fun _ => ?_
    exact .bind (.pass s _) fun _ => .pure _
  · refine .bind (.keyword _) fun _ => .bind (.link s _) fun _ => .bind (.text _) fun _ => ?_
    exact .bind (.pass s _) fun _ => .bind (.close s _) fun _ => .pure _
  · refine .bind (.or (.bind (.keyword _) fun _ => .gap) (.pure ())) fun _ => ?_
    refine .bind (.keyword _) fun _ => .bind nameHere_forward fun _ => ?_
    exact .bind (.pass s _) fun _ => .pure _
  · refine .bind (.keyword _) fun _ => .bind (.link s _) fun _ => .bind (.slice s _) fun _ => ?_
    exact .bind (.pass s _) fun _ => .bind (trail_forward s standing) fun _ => .pure _
  · refine .bind (.keyword _) fun _ => .bind (.link s _) fun _ => .bind (.or ?_ ?_) fun names => ?_
    · exact .bind (.skip _) fun _ => .pure []
    · exact .bind (.slice s _) fun _ => .pure _
    · refine .bind (.or ?_ (.close s _)) fun _ => .pure _
      exact .bind (.pass s _) fun _ => trail_forward s standing

theorem declared_forward (standing : Standing) : Forward (declared s standing) := by
  refine .bind .offset fun start => .bind ?_ fun pair => .bind .offset fun _ => .pure _
  exact .or (functionDeclared_forward s standing) (.or (typedDeclared_forward s standing)
    (.or (variableDeclared_forward s) (classDeclared_forward s standing)))

/-! ## Statements -/

theorem defaultValue_forward : Forward (defaultValue s) := by
  refine .bind .gap fun _ => .or ?_ (.or ?_ ?_)
  · exact .bind (declared_forward s _) fun _ => .pure _
  · refine .bind (.text _) fun name => ?_
    split
    · exact .bind .failure fun _ => .bind (.close s _) fun _ => .pure _
    · exact .bind (.close s _) fun _ => .pure _
  · exact .bind (.pass s _) fun _ => .bind (.close s _) fun _ => .pure _

theorem exportStatement_forward : Forward (exportStatement s) := by
  refine .bind (.pass s _) fun _ => .bind (.keyword _) fun _ => .bind (.link s _) fun _ => ?_
  refine .or ?_ (.or (exportClause_forward s) (.or ?_ (.only _ (.or ?_ (.or ?_ (.or ?_ ?_))))))
  · exact .bind (.keyword _) fun _ => .bind (defaultValue_forward s) fun _ => .pure _
  · exact .bind (declared_forward s _) fun _ => .pure _
  · refine .bind (.symbol _) fun _ => .bind (.pass s _) fun _ => ?_
    exact .bind (.close s _) fun _ => .pure _
  · refine .bind (.keyword _) fun _ => .bind (.pass s _) fun _ => ?_
    exact .bind (.close s _) fun _ => .pure _
  · exact .bind (.pass s _) fun _ => .pure _
  · exact .bind (.keyword _) fun _ => .bind .gap fun _ => importAlias_forward s

theorem plainStatement_forward : Forward (plainStatement s) := by
  refine .or (.bind (declared_forward s _) fun _ => .pure _) (.or ?_ ?_)
  · exact .bind (.skip _) fun _ => .bind (.close s _) fun _ => .pure _
  · exact .bind (.pass s _) fun _ => .pure _

theorem statementHere_forward : Forward (statementHere s) :=
  .or (importStatement_forward s) (.or (exportStatement_forward s) (plainStatement_forward s))

end

/-! ## Modules -/

/-- Spans that lie behind one another, the first one behind a given place, each with its two ends
between characters. -/
inductive Behind : Cursor → List Span → Prop
  | nil (c : Cursor) : Behind c []
  | cons {c start stop : Cursor} {spans : List Span} (before : c.Reaches start)
      (through : start.Reaches stop) (rest : Behind stop spans) :
      Behind c (⟨start.offset, stop.offset⟩ :: spans)

namespace Behind

variable {c d : Cursor} {spans : List Span}

theorem of_reaches (h : c.Reaches d) (behind : Behind d spans) : Behind c spans := by
  cases behind with
  | nil => exact .nil c
  | cons before through rest => exact .cons (h.trans before) through rest

theorem sublist {fewer : List Span} (behind : Behind c spans) (h : fewer.Sublist spans) :
    Behind c fewer := by
  induction h generalizing c with
  | slnil => exact .nil c
  | cons span _ ih =>
    cases behind with
    | cons before through rest => exact of_reaches (before.trans through) (ih rest)
  | cons_cons span _ ih =>
    cases behind with
    | cons before through rest => exact .cons before through (ih rest)

/-- Each span stops between two characters. -/
theorem stop {span : Span} (behind : Behind c spans) (there : span ∈ spans) :
    ∃ d, c.Reaches d ∧ d.offset = span.stop := by
  induction behind with
  | nil => cases there
  | cons before through _ ih =>
    rcases List.mem_cons.mp there with rfl | there
    · exact ⟨_, before.trans through, rfl⟩
    · obtain ⟨d, reached, same⟩ := ih there
      exact ⟨d, (before.trans through).trans reached, same⟩

/-- Each span starts where those in front of it have stopped. -/
theorem pairwise (behind : Behind c spans) :
    (∀ span ∈ spans, c.offset ≤ span.start) ∧ spans.Pairwise (·.stop ≤ ·.start) := by
  induction behind with
  | nil => exact ⟨nofun, .nil⟩
  | cons before through _ ih =>
    have start := before.offset_le
    have stop := through.offset_le
    refine ⟨List.forall_mem_cons.mpr ⟨start, fun span there => ?_⟩, .cons ih.1 ih.2⟩
    have further := ih.1 span there
    omega

end Behind

theorem itemsFrom_behind {s : Scope} {n : Nat} {c : Cursor} {items : List Item}
    (h : itemsFrom s n c = some items) : Behind c (items.map (·.span)) := by
  induction n generalizing c items with
  | zero => cases h
  | succ n ih =>
    simp only [itemsFrom] at h
    split at h
    · obtain rfl := Option.some.inj h
      exact .nil c
    · split at h
      · cases h
      · next statement stop read =>
        split at h
        · obtain ⟨rest, following, rfl⟩ := Option.map_eq_some_iff.mp h
          exact .cons (.advance _ c) (statementHere_forward s _ _ _ read) (ih following)
        · cases h

/-- The statements of a module lie behind one another. -/
theorem items?_behind {l : Language} {text : List Char} {items : List Item}
    (h : items? l text = some items) : Behind (.start text) (items.map (·.span)) := by
  simp only [items?] at h
  split at h
  · next stop token =>
    obtain ⟨rest, following, rfl⟩ := Option.map_eq_some_iff.mp h
    exact .cons (.advance _ _) (.token token) (itemsFrom_behind following)
  · exact .of_reaches (.advance _ _) (itemsFrom_behind h)

theorem import?_span {item : Item} {d : Import} (h : item.import? = some d) :
    d.span = item.span := by
  unfold Item.import? at h
  split at h
  · obtain rfl := Option.some.inj h
    rfl
  · cases h

theorem defaultExport?_span {item : Item} {d : DefaultExport} (h : item.defaultExport? = some d) :
    d.span = item.span := by
  unfold Item.defaultExport? at h
  split at h
  · cases h
    rfl
  · cases h
    rfl
  · cases h
    rfl
  · obtain ⟨specifier, -, rfl⟩ := Option.map_eq_some_iff.mp h
    split <;> rfl
  · cases h

theorem ne_hashBang_of_import {item : Item} {d : Import} (h : item.import? = some d) :
    item.statement ≠ .hashBang := by
  intro bang
  simp [Item.import?, bang] at h

theorem ne_hashBang_of_defaultExport {item : Item} {d : DefaultExport}
    (h : item.defaultExport? = some d) : item.statement ≠ .hashBang := by
  intro bang
  simp [Item.defaultExport?, bang] at h

theorem imports_sublist (items : List Item) :
    ((items.filterMap Item.import?).map (·.span)).Sublist (items.map (·.span)) := by
  induction items with
  | nil => exact .slnil
  | cons item items ih =>
    rw [List.filterMap_cons]
    split
    · exact .cons item.span ih
    · next d imported =>
      rw [List.map_cons, List.map_cons, import?_span imported]
      exact .cons_cons item.span ih

/-- The imports of a module lie behind one another. -/
theorem outline?_behind {l : Language} {text : String} {o : Outline}
    (h : outline? l text = some o) :
    Behind (.start text.toList) (o.imports.map (·.span)) := by
  obtain ⟨items, read, rfl⟩ := Option.map_eq_some_iff.mp h
  exact (items?_behind read).sublist (imports_sublist items)

/-- The prologue of a module ends between characters. -/
theorem outline?_prologue {l : Language} {text : String} {o : Outline}
    (h : outline? l text = some o) :
    ∃ before after, text.toList = before ++ after ∧ byteSize before = o.prologueEnd := by
  obtain ⟨items, read, rfl⟩ := Option.map_eq_some_iff.mp h
  simp only [Outline.ofItems]
  cases last : (items.takeWhile Item.inPrologue).getLast? with
  | none => exact ⟨[], text.toList, rfl, rfl⟩
  | some item =>
    have there : item ∈ items :=
      (List.takeWhile_prefix Item.inPrologue).subset (List.mem_of_getLast? last)
    obtain ⟨d, ⟨before, front, offset⟩, stop⟩ :=
      (items?_behind read).stop (List.mem_map_of_mem there)
    refine ⟨before, d.rest, front, ?_⟩
    calc byteSize before = d.offset := by rw [offset, Cursor.start, Nat.zero_add]
      _ = item.span.stop := stop

end ModuleRepair.Script
