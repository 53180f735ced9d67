import ModuleRepair.Proofs.Script.Forward

/-!
# Where declarations sit

What a statement declares sits between the places where the statement starts and stops
(`statementHere_sits`).
-/
namespace ModuleRepair

open ModuleRepair.Text

/-- Whether a span lies between two places. -/
def Text.Span.Between (c d : Script.Cursor) (span : Span) : Prop :=
  ∃ a b, c.Reaches a ∧ a.Reaches b ∧ b.Reaches d ∧ span = ⟨a.offset, b.offset⟩

theorem Text.Span.Between.mono {c c' d d' : Script.Cursor} {span : Span} (front : c'.Reaches c)
    (back : d.Reaches d') (h : span.Between c d) : span.Between c' d' := by
  obtain ⟨a, b, before, through, behind, rfl⟩ := h
  exact ⟨a, b, front.trans before, through, behind.trans back, rfl⟩

namespace Script

/-- What a statement declares. -/
def Statement.declared? : Statement → Option Declared
  | exportDeclaration x => some x
  | declaration x => some x
  | _ => none

/-- Whether a statement is one that can be read between two places: it is no line that names an
interpreter, and what it declares sits there. -/
structure Statement.Sits (c d : Cursor) (statement : Statement) : Prop where
  ne_hashBang : statement ≠ hashBang
  declared : ∀ x ∈ statement.declared?, x.span.Between c d

theorem Statement.Sits.of_reaches {c c' d : Cursor} {statement : Statement} (h : c.Reaches c')
    (sits : statement.Sits c' d) : statement.Sits c d where
  ne_hashBang := sits.ne_hashBang
  declared x there := (sits.declared x there).mono h (.refl d)

/-- A reader of statements that sit where they are read. -/
def Sitting (r : Reader Statement) : Prop :=
  ∀ c statement d, r c = some (statement, d) → statement.Sits c d

namespace Sitting

variable {α : Type} {r q : Reader Statement}

theorem bind {first : Reader α} {f : α → Reader Statement} (forward : Forward first)
    (second : ∀ a, Sitting (f a)) : Sitting (first >>= f) := by
  intro c statement d h
  rw [Reader.bind_apply] at h
  split at h
  · cases h
  · next a e read => exact (second a e statement d h).of_reaches (forward c a e read)

theorem or (first : Sitting r) (second : Sitting q) : Sitting (r <|> q) := by
  intro c statement d h
  change (r c <|> q c) = _ at h
  cases read : r c with
  | none => exact second c statement d (by simpa [read] using h)
  | some pair => exact first c statement d (by simpa [read] using h)

/-- A statement that declares nothing sits anywhere. -/
theorem pure {statement : Statement} (plain : statement ≠ .hashBang)
    (none : statement.declared? = none) : Sitting (Pure.pure statement) := by
  rintro c here d ⟨⟩
  exact ⟨plain, by simp [none]⟩

theorem failure : Sitting Alternative.failure :=
  fun _ _ _ => nofun

theorem only (holds : Bool) (h : Sitting r) : Sitting (Reader.only holds r) := by
  cases holds with
  | false => exact failure
  | true => exact h

end Sitting

section

variable (s : Scope)

/-- A declaration takes the text from here to the place where it stops. -/
theorem declared_span (standing : Standing) {c d : Cursor} {x : Declared}
    (read : declared s standing c = some (x, d)) : x.span = ⟨c.offset, d.offset⟩ := by
  unfold declared at read
  rw [Reader.bind_apply] at read
  simp only [Reader.offset, Reader.bind_apply] at read
  split at read
  · cases read
  · cases read
    rfl

/-- A statement made of a declaration. -/
theorem Sitting.declared (standing : Standing) {f : Declared → Statement}
    (plain : ∀ x, f x ≠ .hashBang) (same : ∀ x, ∀ y ∈ (f x).declared?, y = x) :
    Sitting (Script.declared s standing >>= fun x => Pure.pure (f x)) := by
  intro c statement d read
  rw [Reader.bind_apply] at read
  split at read
  · cases read
  · next x e here =>
    cases read
    have through : c.Reaches d := declared_forward s standing c x d here
    refine ⟨plain x, fun y there => ?_⟩
    rw [same x y there]
    exact ⟨c, d, .refl c, through, .refl d, declared_span s standing here⟩

theorem importAlias_sits : Sitting (importAlias s) :=
  .only _ (.bind (.pass s _) fun _ => .bind (.pass s _) fun _ => .bind (.close s _) fun _ =>
    .pure nofun rfl)

theorem importStatement_sits : Sitting (importStatement s) := by
  refine .bind .get fun start => .bind (.keyword _) fun _ => .bind .gap fun _ => ?_
  refine .or (importAlias_sits s) (.bind (.or ?_ ?_) fun parts => ?_)
  · exact .bind (.text _) fun _ => .pure _
  · refine .bind (typeMark_forward s) fun _ => .bind (importClause_forward s) fun _ => ?_
    exact .bind fromClause_forward fun _ => .pure _
  · refine .bind (attributes_forward s) fun _ => .bind (.close s _) fun _ => ?_
    exact .bind (endsWithSemicolon_forward start) fun _ => .pure nofun rfl

theorem exportClause_sits : Sitting (exportClause s) := by
  refine .bind (.or (.bind (.only _ (.keyword _)) fun _ => .gap) (.pure ())) fun _ => .or ?_ ?_
  · refine .bind (.symbol _) fun _ => .bind (.or ?_ (.pure none)) fun _ => ?_
    · refine .bind .gap fun _ => .bind (.keyword _) fun _ => .bind .gap fun _ => ?_
      exact .bind (.or (.text _) (.text _)) fun _ => .pure _
    · refine .bind fromClause_forward fun _ => .bind (attributes_forward s) fun _ => ?_
      exact .bind (.close s _) fun _ => .pure nofun rfl
  · refine .bind (braced_forward s) fun _ => .bind (.lift _) fun _ => .bind (.or ?_ (.pure none))
      fun _ => .bind (.close s _) fun _ => .pure nofun rfl
    exact .bind fromClause_forward fun _ => .bind (attributes_forward s) fun _ => .pure _

theorem exportStatement_sits : Sitting (exportStatement s) := by
  refine .bind (.pass s _) fun _ => .bind (.keyword _) fun _ => .bind (.link s _) fun _ => ?_
  refine .or ?_ (.or (exportClause_sits s) (.or ?_ (.only _ (.or ?_ (.or ?_ (.or ?_ ?_))))))
  · exact .bind (.keyword _) fun _ => .bind (defaultValue_forward s) fun _ =>
      .pure nofun rfl
  · exact .declared s _ nofun fun x y there => (Option.some.inj there).symm
  · refine .bind (.symbol _) fun _ => .bind (.pass s _) fun _ => ?_
    exact .bind (.close s _) fun _ => .pure nofun rfl
  · refine .bind (.keyword _) fun _ => .bind (.pass s _) fun _ => ?_
    exact .bind (.close s _) fun _ => .pure nofun rfl
  · exact .bind (.pass s _) fun _ => .pure nofun rfl
  · exact .bind (.keyword _) fun _ => .bind .gap fun _ => importAlias_sits s

theorem plainStatement_sits : Sitting (plainStatement s) := by
  refine .or (.declared s _ (fun x => ?_) fun x y there => ?_) (.or ?_ ?_)
  · split <;> nofun
  · split at there
    · exact (Option.some.inj there).symm
    · cases there
  · exact .bind (.skip _) fun _ => .bind (.close s _) fun _ => .pure nofun rfl
  · exact .bind (.pass s _) fun _ => .pure nofun rfl

/-- What a statement declares sits where the statement stands. -/
theorem statementHere_sits : Sitting (statementHere s) :=
  .or (importStatement_sits s) (.or (exportStatement_sits s) (plainStatement_sits s))

end

end Script

end ModuleRepair
