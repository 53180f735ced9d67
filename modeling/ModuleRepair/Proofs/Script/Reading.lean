import ModuleRepair.Script.Module

/-!
# What a reader takes from a text

A reader is described by the piece that it takes from the front of a text, with the rest still
behind it: what follows decides where a word or a statement ends. Readers in sequence take their
pieces one after the other (`Reads.bind`), and of two readers the second takes over where the first
refuses (`Reads.or_right`).
-/
namespace ModuleRepair.Script

open ModuleRepair.Text

variable {α β : Type}

/-- Placed in front of `s ++ rest`, the reader takes `s` and answers `a`. -/
def Reads (r : Reader α) (offset : Nat) (s : List Char) (a : α) (rest : List Char) : Prop :=
  r ⟨offset, s ++ rest⟩ = some (a, ⟨offset + byteSize s, rest⟩)

/-- The reader fails in front of `s`. -/
def Refuses (r : Reader α) (offset : Nat) (s : List Char) : Prop :=
  r ⟨offset, s⟩ = none

theorem Cursor.advance_append (offset : Nat) (s rest : List Char) :
    Cursor.advance s.length ⟨offset, s ++ rest⟩ = ⟨offset + byteSize s, rest⟩ := by
  induction s generalizing offset with
  | nil => rfl
  | cons c s ih => simp [Cursor.advance, ih, Nat.add_assoc]

theorem Cursor.textTo_append (offset : Nat) (s rest more : List Char) :
    Cursor.textTo ⟨offset, s ++ rest⟩ ⟨offset + byteSize s, more⟩ = s := by
  simp [Cursor.textTo]

namespace Reads

variable {r : Reader α} {offset : Nat} {s t rest : List Char} {a : α}

theorem bind {f : α → Reader β} {b : β} (first : Reads r offset s a (t ++ rest))
    (second : Reads (f a) (offset + byteSize s) t b rest) :
    Reads (r >>= f) offset (s ++ t) b rest := by
  unfold Reads at *
  rw [Reader.bind_apply, List.append_assoc, first]
  simp only [second, byteSize_append, Nat.add_assoc]

/-- A step that takes nothing. -/
theorem bind_nil {f : α → Reader β} {b : β} (first : Reads r offset [] a (t ++ rest))
    (second : Reads (f a) offset t b rest) : Reads (r >>= f) offset t b rest :=
  first.bind second

theorem pure (offset : Nat) (a : α) (rest : List Char) :
    Reads (Pure.pure a : Reader α) offset [] a rest := rfl

/-- A step behind which nothing more is taken. -/
theorem bind_end {f : α → Reader β} {b : β} (first : Reads r offset s a rest)
    (second : Reads (f a) (offset + byteSize s) [] b rest) :
    Reads (r >>= f) offset s b rest := by
  have := bind (t := []) first second
  rwa [List.append_nil] at this

theorem map {f : α → β} (first : Reads r offset s a rest) :
    Reads (r >>= fun a => Pure.pure (f a)) offset s (f a) rest :=
  first.bind_end (pure ..)

theorem or_left (q : Reader α) (first : Reads r offset s a rest) :
    Reads (r <|> q) offset s a rest := by
  unfold Reads at *
  change (r _ <|> q _) = _
  rw [first]; rfl

theorem or_right {q : Reader α} (first : Refuses r offset (s ++ rest))
    (second : Reads q offset s a rest) : Reads (r <|> q) offset s a rest := by
  unfold Reads Refuses at *
  change (r _ <|> q _) = _
  rw [first, second]; rfl

/-- Looking at the place takes nothing. -/
theorem get (offset : Nat) (rest : List Char) :
    Reads (MonadState.get : Reader Cursor) offset [] ⟨offset, rest⟩ rest := rfl

/-- A value from elsewhere. -/
theorem lift {value : Option α} (h : value = some a) (offset : Nat) (rest : List Char) :
    Reads (liftM value) offset [] a rest := by
  subst h; rfl

theorem skip {measure : List Char → Option Nat} (h : measure (s ++ rest) = some s.length) :
    Reads (Reader.skip measure) offset s () rest := by
  simp [Reads, Reader.skip, Cursor.token?, h, Cursor.advance_append]

theorem text {measure : List Char → Option Nat} (h : measure (s ++ rest) = some s.length) :
    Reads (Reader.text measure) offset s (String.ofList s) rest := by
  simp [Reads, Reader.text, h, Cursor.advance_append]

/-- The text of a string. -/
theorem string {measure : List Char → Option Nat} {name : String}
    (h : measure (name.toList ++ rest) = some name.toList.length) :
    Reads (Reader.text measure) offset name.toList name rest := by
  have read : Reads (Reader.text measure) offset name.toList (String.ofList name.toList) rest :=
    text h
  rwa [String.ofList_toList] at read

theorem gap (h : gapLength (s ++ rest) = s.length) : Reads Reader.gap offset s () rest := by
  simp [Reads, Reader.gap, Cursor.skipGap, h, Cursor.advance_append]

end Reads

namespace Refuses

variable {r : Reader α} {offset : Nat} {s t : List Char} {a : α}

theorem bind (f : α → Reader β) (first : Refuses r offset s) : Refuses (r >>= f) offset s := by
  unfold Refuses at *
  rw [Reader.bind_apply, first]

theorem bind_right {f : α → Reader β} (first : Reads r offset s a t)
    (second : Refuses (f a) (offset + byteSize s) t) :
    Refuses (r >>= f) offset (s ++ t) := by
  unfold Refuses Reads at *
  rw [Reader.bind_apply, first]
  exact second

theorem or {q : Reader α} (first : Refuses r offset s) (second : Refuses q offset s) :
    Refuses (r <|> q) offset s := by
  unfold Refuses at *
  change (r _ <|> q _) = _
  rw [first, second]; rfl

theorem skip {measure : List Char → Option Nat} (h : measure s = none) :
    Refuses (Reader.skip measure) offset s := by
  simp [Refuses, Reader.skip, Cursor.token?, h]

theorem text {measure : List Char → Option Nat} (h : measure s = none) :
    Refuses (Reader.text measure) offset s := by
  simp [Refuses, Reader.text, h]

theorem pass {scope : Scope} {p : Shape}
    (h : Pattern.run (grammar scope.language) scope.fuel p ⟨offset, s⟩ = none) :
    Refuses (Reader.pass scope p) offset s := by
  simp [Refuses, Reader.pass, h]

theorem slice {scope : Scope} {p : Shape}
    (h : Pattern.run (grammar scope.language) scope.fuel p ⟨offset, s⟩ = none) :
    Refuses (Reader.slice scope p) offset s := by
  simp [Refuses, Reader.slice, h]

end Refuses

end ModuleRepair.Script
