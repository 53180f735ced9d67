import ModuleRepair.Proofs.Script.Heights
import ModuleRepair.Proofs.Text.Slice

/-!
# The same text in another place

What stands behind a place of a text is read in the same way wherever the place is, and whatever
stands in front of it: only the offsets change (`itemsFrom_later`). The fuel of a scope comes from
the whole text, so two scopes are compared here, both with enough of it.
-/
namespace ModuleRepair.Script

open ModuleRepair.Text

variable {α β : Type}

/-! ## Offsets -/

def Declared.later (n : Nat) (d : Declared) : Declared :=
  { d with span := d.span.later n }

def Statement.later (n : Nat) : Statement → Statement
  | exportDeclaration d => exportDeclaration (d.later n)
  | declaration d => declaration (d.later n)
  | statement => statement

def Item.later (n : Nat) (item : Item) : Item :=
  ⟨item.statement.later n, item.span.later n⟩

theorem Item.later_ne_hashBang {n : Nat} {item : Item} (h : item.statement ≠ .hashBang) :
    (item.later n).statement ≠ .hashBang := by
  obtain ⟨statement, span⟩ := item
  cases statement with
  | hashBang => exact absurd rfl h
  | _ => nofun

/-! ## Readers -/

/-- Two readers that read alike: of fewer characters than a bound, the second one reads some bytes
further on what the first one reads, moved. -/
structure Alike (bound n : Nat) (move : α → α) (r r' : Reader α) : Prop where
  forward : Forward r
  reads : ∀ c, c.rest.length < bound →
    r' (c.later n) = (r c).map fun read => (move read.1, read.2.later n)

/-- Readers of something that has no place. -/
abbrev Same (bound n : Nat) (r r' : Reader α) : Prop :=
  Alike bound n id r r'

namespace Alike

variable {bound n : Nat} {move : α → α} {move' : β → β} {r r' q q' : Reader α}

theorem bind_moved {f f' : α → Reader β} (first : Alike bound n move r r')
    (second : ∀ a, Alike bound n move' (f a) (f' (move a))) :
    Alike bound n move' (r >>= f) (r' >>= f') where
  forward := first.forward.bind fun a => (second a).forward
  reads c short := by
    rw [Reader.bind_apply, Reader.bind_apply, first.reads c short]
    cases read : r c with
    | none => rfl
    | some pair =>
      have shorter := (first.forward c pair.1 pair.2 read).length_le
      exact (second pair.1).reads pair.2 (by omega)

theorem bind {f f' : α → Reader β} (first : Same bound n r r')
    (second : ∀ a, Alike bound n move' (f a) (f' a)) :
    Alike bound n move' (r >>= f) (r' >>= f') :=
  first.bind_moved second

/-- A first step that takes something leaves less to the second one. -/
theorem bind_taking {f f' : α → Reader β} (first : Same (bound + 1) n r r')
    (takes : ∀ c a d, r c = some (a, d) → d.rest.length < c.rest.length)
    (second : ∀ a, Alike bound n move' (f a) (f' a)) :
    Alike (bound + 1) n move' (r >>= f) (r' >>= f') where
  forward := first.forward.bind fun a => (second a).forward
  reads c short := by
    rw [Reader.bind_apply, Reader.bind_apply, first.reads c short]
    cases read : r c with
    | none => rfl
    | some pair =>
      have shorter := takes c pair.1 pair.2 read
      exact (second pair.1).reads pair.2 (by omega)

/-- No text is that short. -/
theorem of_zero (forward : Forward r) : Alike 0 n move r r' where
  forward := forward
  reads _ short := absurd short (Nat.not_lt_zero _)

theorem or (first : Alike bound n move r r') (second : Alike bound n move q q') :
    Alike bound n move (r <|> q) (r' <|> q') where
  forward := first.forward.or second.forward
  reads c short := by
    change (r' (c.later n) <|> q' (c.later n)) = ((r c <|> q c)).map _
    rw [first.reads c short]
    cases r c with
    | none => exact second.reads c short
    | some pair => rfl

theorem pure (a : α) : Alike bound n move (Pure.pure a) (Pure.pure (move a)) where
  forward := .pure a
  reads _ _ := rfl

theorem failure : Alike bound n move (Alternative.failure : Reader α) Alternative.failure where
  forward := .failure
  reads _ _ := rfl

theorem get : Alike bound n (Cursor.later n) (MonadState.get : Reader Cursor) MonadState.get where
  forward := .get
  reads _ _ := rfl

theorem offset : Alike bound n (· + n) Reader.offset Reader.offset where
  forward := .offset
  reads _ _ := rfl

theorem lift (value : Option α) : Same bound n (liftM value : Reader α) (liftM value) where
  forward := .lift value
  reads c _ := by cases value <;> rfl

theorem only (holds : Bool) (h : Alike bound n move r r') :
    Alike bound n move (Reader.only holds r) (Reader.only holds r') := by
  cases holds with
  | false => exact failure
  | true => exact h

theorem skip (measure : List Char → Option Nat) :
    Same bound n (Reader.skip measure) (Reader.skip measure) where
  forward := .skip measure
  reads c _ := by simp [Reader.skip, Cursor.token?_later, Function.comp_def]

theorem text (measure : List Char → Option Nat) :
    Same bound n (Reader.text measure) (Reader.text measure) where
  forward := .text measure
  reads c _ := by simp [Reader.text, Cursor.advance_later, Function.comp_def]

theorem gap : Same bound n Reader.gap Reader.gap where
  forward := .gap
  reads c _ := by simp [Reader.gap, Cursor.skipGap_later]

theorem keyword (k : String) : Same bound n (Reader.keyword k) (Reader.keyword k) := skip _

theorem symbol (k : String) : Same bound n (Reader.symbol k) (Reader.symbol k) := skip _

end Alike

/-- Two scopes with enough fuel for texts of fewer characters than a bound. -/
structure Ample (bound fuel fuel' : Nat) : Prop where
  first : 200 * bound + 1800 ≤ fuel
  second : 200 * bound + 1800 ≤ fuel'

theorem Ample.mono {bound bound' fuel fuel' : Nat} (h : Ample bound fuel fuel')
    (le : bound' ≤ bound) : Ample bound' fuel fuel' where
  first := Nat.le_trans (Nat.add_le_add_right (Nat.mul_le_mul_left 200 le) 1800) h.first
  second := Nat.le_trans (Nat.add_le_add_right (Nat.mul_le_mul_left 200 le) 1800) h.second

section

variable {l : Language} {fuel fuel' bound n : Nat} {p : Shape}

theorem close_alike (operand : Bool) :
    Same bound n (Reader.close ⟨l, fuel⟩ operand) (Reader.close ⟨l, fuel'⟩ operand) := .skip _

theorem link_alike (operand : Bool) :
    Same bound n (Reader.link ⟨l, fuel⟩ operand) (Reader.link ⟨l, fuel'⟩ operand) := .skip _

theorem run_alike (ample : Ample bound fuel fuel') (within : Pattern.Within height 200 2000 p)
    {c : Cursor} (short : c.rest.length < bound) :
    Pattern.run (grammar l) fuel' p (c.later n) =
      (Pattern.run (grammar l) fuel p c).map (·.later n) := by
  have first := ample.first
  have second := ample.second
  exact Pattern.run_later (grammar_bounded l) within (by omega) (by omega) n

theorem pass_alike (ample : Ample bound fuel fuel') (within : Pattern.Within height 200 2000 p) :
    Same bound n (Reader.pass ⟨l, fuel⟩ p) (Reader.pass ⟨l, fuel'⟩ p) where
  forward := .pass _ p
  reads c short := by simp [Reader.pass, run_alike ample within short, Function.comp_def]

theorem slice_alike (ample : Ample bound fuel fuel') (within : Pattern.Within height 200 2000 p) :
    Same bound n (Reader.slice ⟨l, fuel⟩ p) (Reader.slice ⟨l, fuel'⟩ p) where
  forward := .slice _ p
  reads c short := by
    simp [Reader.slice, run_alike ample within short, Function.comp_def, Cursor.textTo_later]

end

/-! ## Clauses -/

section

variable {l : Language} {fuel fuel' bound n : Nat}

theorem entryWords_alike (m : Nat) : Same bound n (entryWords m) (entryWords m) := by
  induction m with
  | zero => exact .pure []
  | succ m ih =>
    refine .or ?_ (.pure [])
    exact .bind .gap fun _ => .bind (.or (.text _) (.text _)) fun w => ih.bind fun _ => .pure _

theorem symbol_takes {k : String} (h : endsVisibly k.toList = true) (c : Cursor) (a : Unit)
    (d : Cursor) (read : Reader.symbol k c = some (a, d)) : d.rest.length < c.rest.length := by
  obtain ⟨e, token, ⟨⟩⟩ := Option.map_eq_some_iff.mp read
  exact Pattern.token?_lt (Shape.takes_sym h) token

/-- The entries in braces are read alike when there can be as many as the text has characters. -/
theorem entries_alike {m m' : Nat} (enough : bound ≤ m) (enough' : bound ≤ m') :
    Same bound n (entries m) (entries m') := by
  induction m generalizing m' bound with
  | zero =>
    obtain rfl : bound = 0 := by omega
    exact .of_zero (entries_forward 0)
  | succ m ih =>
    cases bound with
    | zero => exact .of_zero (entries_forward _)
    | succ bound =>
      obtain ⟨m', rfl⟩ : ∃ k, m' = k + 1 := ⟨m' - 1, by omega⟩
      have rest : Same bound n (entries m) (entries m') := ih (by omega) (by omega)
      refine .or (.bind .gap fun _ => .bind (.symbol _) fun _ => .pure []) ?_
      refine .bind (entryWords_alike 4) fun entry => .bind .gap fun _ => .or ?_ ?_
      · exact .bind_taking (.symbol _) (symbol_takes rfl) fun _ => rest.bind fun _ => .pure _
      · exact .bind (.symbol _) fun _ => .pure [entry]

theorem fromClause_alike : Same bound n fromClause fromClause :=
  .bind .gap fun _ => .bind (.keyword _) fun _ => .bind .gap fun _ => .text _

/-- What stands behind a word does not depend on the place. -/
theorem namesType_later (c : Cursor) : namesType (c.later n) = namesType c := by
  have alike : Same (c.rest.length + 1) n
      (do Reader.keyword "from"; Reader.gap; Reader.skip string?)
      (do Reader.keyword "from"; Reader.gap; Reader.skip string?) :=
    .bind (.keyword _) fun _ => .bind .gap fun _ => .skip _
  have reads := alike.reads c (Nat.lt_succ_self _)
  unfold namesType
  rw [Cursor.later_rest, reads, Option.isSome_map]

theorem typeMark_alike : Same bound n (typeMark ⟨l, fuel⟩) (typeMark ⟨l, fuel'⟩) := by
  refine .or ?_ (.pure false)
  refine .bind (.only _ (.or (.text _) (.text _))) fun mark => .bind .gap fun _ => ?_
  refine .bind_moved .get fun c => ?_
  rw [namesType_later]
  split
  · exact .bind .failure fun _ => .pure _
  · exact .bind (.pure _) fun _ => .pure _

theorem endsWithSemicolon_alike (start : Cursor) :
    Same bound n (endsWithSemicolon start) (endsWithSemicolon (start.later n)) where
  forward := endsWithSemicolon_forward start
  reads c _ := by simp [endsWithSemicolon, Cursor.textTo_later]

variable (ample : Ample bound fuel fuel')

include ample

theorem braced_alike : Same bound n (braced ⟨l, fuel⟩) (braced ⟨l, fuel'⟩) := by
  have first := ample.first
  have second := ample.second
  have entries : Same bound n (entries fuel) (entries fuel') :=
    entries_alike (by omega) (by omega)
  exact .bind (.symbol _) fun _ => entries

theorem importedBindings_alike :
    Same bound n (importedBindings ⟨l, fuel⟩) (importedBindings ⟨l, fuel'⟩) := by
  refine .or ?_ ?_
  · refine .bind (.symbol _) fun _ => .bind .gap fun _ => .bind (.keyword _) fun _ => ?_
    exact .bind .gap fun _ => .bind (.text _) fun _ => .pure _
  · exact .bind (braced_alike ample) fun _ => .bind (.lift _) fun _ => .pure _

theorem importClause_alike : Same bound n (importClause ⟨l, fuel⟩) (importClause ⟨l, fuel'⟩) := by
  refine .or (.bind (importedBindings_alike ample) fun _ => .pure _) ?_
  refine .bind (.text _) fun _ => .or ?_ (.pure _)
  refine .bind .gap fun _ => .bind (.symbol _) fun _ => .bind .gap fun _ => ?_
  exact .bind (importedBindings_alike ample) fun _ => .pure _

theorem attributes_alike : Same bound n (attributes ⟨l, fuel⟩) (attributes ⟨l, fuel'⟩) := by
  refine .or (.bind (link_alike _) fun _ => .bind (slice_alike ample ?_) fun _ => .pure _)
    (.pure none)
  simp [height, endsVisibly, isAsciiBlank]

theorem importAlias_alike :
    Alike bound n (Statement.later n) (importAlias ⟨l, fuel⟩) (importAlias ⟨l, fuel'⟩) := by
  refine .only _ (.bind (pass_alike ample ?_) fun _ => .bind (pass_alike ample ?_) fun _ =>
    .bind (close_alike _) fun _ => .pure Statement.other)
  · simp [endsVisibly, isAsciiBlank]
  · simp [dottedName, endsVisibly, isAsciiBlank, height]

theorem importStatement_alike :
    Alike bound n (Statement.later n) (importStatement ⟨l, fuel⟩) (importStatement ⟨l, fuel'⟩) := by
  refine .bind_moved .get fun start => .bind (.keyword _) fun _ => .bind .gap fun _ => ?_
  refine .or (importAlias_alike ample) (.bind (.or ?_ ?_) fun parts => ?_)
  · exact .bind (.text _) fun _ => .pure _
  · refine .bind typeMark_alike fun _ => .bind (importClause_alike ample) fun _ => ?_
    exact .bind fromClause_alike fun _ => .pure _
  · refine .bind (attributes_alike ample) fun _ => .bind (close_alike _) fun _ => ?_
    exact .bind (endsWithSemicolon_alike start) fun _ => .pure (Statement.importing _)

theorem exportClause_alike :
    Alike bound n (Statement.later n) (exportClause ⟨l, fuel⟩) (exportClause ⟨l, fuel'⟩) := by
  refine .bind (.or (.bind (.only _ (.keyword _)) fun _ => .gap) (.pure ())) fun _ => .or ?_ ?_
  · refine .bind (.symbol _) fun _ => .bind (.or ?_ (.pure none)) fun _ => ?_
    · refine .bind .gap fun _ => .bind (.keyword _) fun _ => .bind .gap fun _ => ?_
      exact .bind (.or (.text _) (.text _)) fun _ => .pure _
    · refine .bind fromClause_alike fun _ => .bind (attributes_alike ample) fun _ => ?_
      exact .bind (close_alike _) fun _ => .pure (Statement.exportAll _)
  · refine .bind (braced_alike ample) fun _ => .bind (.lift _) fun _ => .bind (.or ?_ (.pure none))
      fun _ => .bind (close_alike _) fun _ => .pure (Statement.exportNames _ _)
    exact .bind fromClause_alike fun _ => .bind (attributes_alike ample) fun _ => .pure _

/-! ## Declarations -/

omit ample in
theorem trail_alike (standing : Standing) :
    Same bound n (trail ⟨l, fuel⟩ standing) (trail ⟨l, fuel'⟩ standing) := .skip _

omit ample in
theorem nameHere_alike : Same bound n nameHere nameHere := .bind .gap fun _ => .text _

theorem functionDeclared_alike (standing : Standing) :
    Same bound n (functionDeclared ⟨l, fuel⟩ standing) (functionDeclared ⟨l, fuel'⟩ standing) := by
  refine .bind (.or (.bind (.keyword _) fun _ => link_alike _) (.pure ())) fun _ => ?_
  refine .bind (.keyword _) fun _ => .bind (.or ?_ (.pure false)) fun _ => ?_
  · exact .bind .gap fun _ => .bind (.symbol _) fun _ => .pure true
  · refine .bind nameHere_alike fun _ => .bind (pass_alike ample ?_) fun _ => .or ?_ ?_
    · simp [signature, Shape.annotation, height, endsVisibly, isAsciiBlank]
    · refine .bind (pass_alike ample ?_) fun _ => .bind (trail_alike standing) fun _ => .pure _
      simp [height]
    · exact .bind (.only _ (.skip _)) fun _ => .pure _

theorem classDeclared_alike (standing : Standing) :
    Same bound n (classDeclared ⟨l, fuel⟩ standing) (classDeclared ⟨l, fuel'⟩ standing) := by
  refine .bind (pass_alike ample ?_) fun _ => .bind (.or ?_ (.pure false)) fun abstract => ?_
  · simp [height]
  · exact .bind (.only _ (.keyword _)) fun _ => .bind (link_alike _) fun _ => .pure true
  · refine .bind (.keyword _) fun _ => .bind .gap fun _ => .bind (pass_alike ample ?_) fun _ => ?_
    · simp
    · refine .bind (.text _) fun _ => .bind (pass_alike ample ?_) fun _ => ?_
      · simp [height]
      · split
        · exact .pure _
        · exact .bind (trail_alike standing) fun _ => .pure _

/-- The variables are read alike when there can be as many as the text has characters. -/
theorem readDeclarators_alike {m m' : Nat} (enough : bound ≤ m) (enough' : bound ≤ m') :
    Same bound n (readDeclarators ⟨l, fuel⟩ m) (readDeclarators ⟨l, fuel'⟩ m') := by
  induction m generalizing m' bound with
  | zero =>
    obtain rfl : bound = 0 := by omega
    exact .of_zero (readDeclarators_forward _ 0)
  | succ m ih =>
    cases bound with
    | zero => exact .of_zero (readDeclarators_forward _ _)
    | succ bound =>
      obtain ⟨m', rfl⟩ : ∃ k, m' = k + 1 := ⟨m' - 1, by omega⟩
      have less : Ample bound fuel fuel' := ample.mono (Nat.le_succ bound)
      have rest : Same bound n (readDeclarators ⟨l, fuel⟩ m) (readDeclarators ⟨l, fuel'⟩ m') :=
        ih less (by omega) (by omega)
      refine .bind .gap fun _ => .bind (.or ?_ ?_) fun names => ?_
      · exact .bind (.text _) fun _ => .pure _
      · refine .bind (pass_alike ample ?_) fun _ => .pure []
        simp [height]
      · refine .bind (pass_alike ample ?_) fun _ => .bind (pass_alike ample ?_) fun _ =>
          .bind (.or ?_ (.pure false)) fun valued => .or ?_ (.pure _)
        · simp [endsVisibly, isAsciiBlank]
        · simp [ Shape.annotation, height, endsVisibly, isAsciiBlank]
        · refine .bind .gap fun _ => .bind (.symbol _) fun _ => ?_
          refine .bind (pass_alike ample ?_) fun _ => .pure true
          simp [height]
        · refine .bind (link_alike _) fun _ => ?_
          exact .bind_taking (.symbol _) (symbol_takes rfl) fun _ => rest.bind fun _ => .pure _

theorem variableDeclared_alike :
    Same bound n (variableDeclared ⟨l, fuel⟩) (variableDeclared ⟨l, fuel'⟩) := by
  have first := ample.first
  have second := ample.second
  refine .bind (.or ?_ (.or ?_ ?_)) fun kind => ?_
  · exact .bind (.keyword _) fun _ => .pure _
  · exact .bind (.keyword _) fun _ => .pure _
  · exact .bind (.keyword _) fun _ => .bind (link_alike _) fun _ => .pure _
  · refine .bind (readDeclarators_alike ample ?_ ?_) fun _ => .bind (close_alike _) fun _ => .pure _
    · show bound ≤ fuel
      omega
    · show bound ≤ fuel'
      omega

theorem typedDeclared_alike (standing : Standing) :
    Same bound n (typedDeclared ⟨l, fuel⟩ standing) (typedDeclared ⟨l, fuel'⟩ standing) := by
  refine .only _ (.or ?_ (.or ?_ (.or ?_ (.or ?_ ?_))))
  · refine .bind (.keyword _) fun _ => .bind nameHere_alike fun _ => ?_
    refine .bind (pass_alike ample ?_) fun _ => .pure _
    simp [height, endsVisibly, isAsciiBlank]
  · refine .bind (.keyword _) fun _ => .bind (link_alike _) fun _ => .bind (.text _) fun _ => ?_
    refine .bind (pass_alike ample ?_) fun _ => .bind (close_alike _) fun _ => .pure _
    simp [height, endsVisibly, isAsciiBlank]
  · refine .bind (.or (.bind (.keyword _) fun _ => .gap) (.pure ())) fun _ => ?_
    refine .bind (.keyword _) fun _ => .bind nameHere_alike fun _ => ?_
    refine .bind (pass_alike ample ?_) fun _ => .pure _
    simp [height]
  · refine .bind (.keyword _) fun _ => .bind (link_alike _) fun _ =>
      .bind (slice_alike ample ?_) fun _ => ?_
    · simp [dottedName, endsVisibly, isAsciiBlank]
    · refine .bind (pass_alike ample ?_) fun _ => .bind (trail_alike standing) fun _ => .pure _
      simp [height]
  · refine .bind (.keyword _) fun _ => .bind (link_alike _) fun _ =>
      .bind (.or ?_ ?_) fun names => ?_
    · exact .bind (.skip _) fun _ => .pure []
    · refine .bind (slice_alike ample ?_) fun _ => .pure _
      simp [dottedName, endsVisibly, isAsciiBlank]
    · refine .bind (.or ?_ (close_alike _)) fun _ => .pure _
      refine .bind (pass_alike ample ?_) fun _ => trail_alike standing
      simp [height]

theorem declared_alike (standing : Standing) :
    Alike bound n (Declared.later n) (declared ⟨l, fuel⟩ standing)
      (declared ⟨l, fuel'⟩ standing) := by
  refine .bind_moved .offset fun start => .bind ?_ fun pair => .bind_moved .offset fun stop =>
    .pure (Declared.mk pair.1 pair.2 ⟨start, stop⟩)
  exact .or (functionDeclared_alike ample standing) (.or (typedDeclared_alike ample standing)
    (.or (variableDeclared_alike ample) (classDeclared_alike ample standing)))

/-! ## Statements -/

theorem defaultValue_alike : Same bound n (defaultValue ⟨l, fuel⟩) (defaultValue ⟨l, fuel'⟩) := by
  refine .bind .gap fun _ => .or ?_ (.or ?_ ?_)
  · exact .bind_moved (declared_alike ample _) fun d => .pure _
  · refine .bind (.text _) fun name => ?_
    split
    · exact .bind .failure fun _ => .bind (close_alike _) fun _ => .pure _
    · exact .bind (close_alike _) fun _ => .pure _
  · refine .bind (pass_alike ample ?_) fun _ => .bind (close_alike _) fun _ => .pure _
    simp [height]

theorem exportStatement_alike :
    Alike bound n (Statement.later n) (exportStatement ⟨l, fuel⟩) (exportStatement ⟨l, fuel'⟩) := by
  refine .bind (pass_alike ample ?_) fun _ => .bind (.keyword _) fun _ =>
    .bind (link_alike _) fun _ => ?_
  · simp [height]
  · refine .or ?_ (.or (exportClause_alike ample) (.or ?_ (.only _ (.or ?_ (.or ?_ (.or ?_ ?_))))))
    · exact .bind (.keyword _) fun _ => .bind (defaultValue_alike ample) fun _ =>
        .pure (Statement.exportDefault _)
    · exact .bind_moved (declared_alike ample _) fun d => .pure (Statement.exportDeclaration d)
    · refine .bind (.symbol _) fun _ => .bind (pass_alike ample ?_) fun _ => ?_
      · simp [height]
      · exact .bind (close_alike _) fun _ => .pure Statement.other
    · refine .bind (.keyword _) fun _ => .bind (pass_alike ample ?_) fun _ => ?_
      · simp [endsVisibly, isAsciiBlank]
      · exact .bind (close_alike _) fun _ => .pure Statement.other
    · refine .bind (pass_alike ample ?_) fun _ => .pure Statement.other
      simp [height, endsVisibly, isAsciiBlank]
    · exact .bind (.keyword _) fun _ => .bind .gap fun _ => importAlias_alike ample

theorem plainStatement_alike :
    Alike bound n (Statement.later n) (plainStatement ⟨l, fuel⟩) (plainStatement ⟨l, fuel'⟩) := by
  refine .or (.bind_moved (declared_alike ample _) fun d => ?_) (.or ?_ ?_)
  · have moved : (if d.kind.countsAlone then .declaration d else .other : Statement).later n =
        if d.kind.countsAlone then .declaration (d.later n) else .other := by
      split <;> rfl
    exact moved ▸ .pure _
  · exact .bind (.skip _) fun _ => .bind (close_alike _) fun _ => .pure Statement.directive
  · refine .bind (pass_alike ample ?_) fun _ => .pure Statement.other
    simp [height, Shape.close]

theorem statementHere_alike :
    Alike bound n (Statement.later n) (statementHere ⟨l, fuel⟩) (statementHere ⟨l, fuel'⟩) :=
  .or (importStatement_alike ample) (.or (exportStatement_alike ample) (plainStatement_alike ample))

end

/-! ## Modules -/

/-- The statements from a place on are the same wherever the place is. -/
theorem itemsFrom_later {l : Language} {fuel fuel' bound m m' n : Nat}
    (ample : Ample bound fuel fuel') {c : Cursor} (short : c.rest.length < bound)
    (enough : c.rest.length < m) (enough' : c.rest.length < m') :
    itemsFrom ⟨l, fuel'⟩ m' (c.later n) =
      (itemsFrom ⟨l, fuel⟩ m c).map (·.map (Item.later n)) := by
  induction m generalizing m' c with
  | zero => exact absurd enough (Nat.not_lt_zero _)
  | succ m ih =>
    obtain ⟨m', rfl⟩ : ∃ k, m' = k + 1 := ⟨m' - 1, by omega⟩
    have behind : c.skipGap.rest.length ≤ c.rest.length :=
      (Cursor.Reaches.advance (gapLength c.rest) c).length_le
    have shorter : c.skipGap.rest.length < bound := Nat.lt_of_le_of_lt behind short
    have reads := (statementHere_alike (l := l) ample (n := n)).reads c.skipGap shorter
    rw [itemsFrom, itemsFrom, Cursor.skipGap_later, Cursor.later_rest, reads]
    split
    · rfl
    · cases read : statementHere ⟨l, fuel⟩ c.skipGap with
      | none => rfl
      | some pair =>
        obtain ⟨statement, stop⟩ := pair
        simp only [Option.map_some, Cursor.later_offset, Nat.add_lt_add_iff_right]
        split
        · next progress =>
          have through : c.skipGap.Reaches stop := statementHere_forward _ _ _ _ read
          have less := through.length_lt progress
          have rest : itemsFrom ⟨l, fuel'⟩ m' (stop.later n) = _ :=
            ih (by omega) (by omega) (by omega)
          rw [rest]
          simp [Function.comp_def, Item.later, Span.later]
        · rfl

/-- The statements at the end of a text, from a place on, are those of that end. -/
theorem itemsFrom_suffix {l : Language} (s rest : List Char) {m : Nat} (enough : rest.length < m) :
    itemsFrom (Scope.of l (s ++ rest)) m ⟨byteSize s, rest⟩ =
      (itemsFrom (Scope.of l rest) (rest.length + 1) (.start rest)).map
        (·.map (Item.later (byteSize s))) := by
  have ample : Ample (rest.length + 1) (Scope.of l rest).fuel (Scope.of l (s ++ rest)).fuel := by
    constructor <;> simp only [Scope.of, List.length_append] <;> omega
  have moved : Cursor.later (byteSize s) (.start rest) = ⟨byteSize s, rest⟩ := by
    rw [Cursor.later, Cursor.start, Nat.zero_add]
  rw [← moved]
  exact itemsFrom_later ample (Nat.lt_succ_self _) (Nat.lt_succ_self _) enough

end ModuleRepair.Script
