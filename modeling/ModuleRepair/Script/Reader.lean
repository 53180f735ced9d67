import ModuleRepair.Script.Rules

/-!
# Readers

A reader takes something from a place in a script and moves on, or fails and stays. Whatever it
does not look into is passed over by a pattern of the grammar.
-/
namespace ModuleRepair.Script

open ModuleRepair.Text

/-- Reads from a place in a text and moves on, or fails. -/
abbrev Reader (α : Type) := StateT Cursor Option α

/-- What reading a script needs: its language, and a bound that its length gives. -/
structure Scope where
  language : Language
  fuel : Nat

/-- The scope of a text. The bound is far above the depth that its length allows. -/
def Scope.of (language : Language) (s : List Char) : Scope :=
  ⟨language, 200 * (s.length + 10)⟩

namespace Reader

/-- Passes over a token. -/
def skip (measure : List Char → Option Nat) : Reader Unit := fun c =>
  (c.token? measure).map fun d => ((), d)

/-- Takes the text of a token. -/
def text (measure : List Char → Option Nat) : Reader String := fun c =>
  (measure c.rest).map fun n => (String.ofList (c.rest.take n), c.advance n)

/-- Passes over blanks and comments. -/
def gap : Reader Unit := fun c => some ((), c.skipGap)

/-- Passes over a keyword. -/
def keyword (k : String) : Reader Unit := skip (keyword? k.toList)

/-- Passes over a piece of punctuation. -/
def symbol (k : String) : Reader Unit := skip (symbol? k.toList)

/-- Passes over what a pattern matches. -/
def pass (s : Scope) (p : Shape) : Reader Unit := fun c =>
  (Pattern.run (grammar s.language) s.fuel p c).map fun d => ((), d)

/-- Takes the text that a pattern matches. -/
def slice (s : Scope) (p : Shape) : Reader String := fun c =>
  (Pattern.run (grammar s.language) s.fuel p c).map fun d => (String.ofList (c.textTo d), d)

/-- A reader for some languages only. -/
def only {α : Type} (holds : Bool) (r : Reader α) : Reader α :=
  if holds then r else failure

/-- Passes over the end of a statement, with its semicolon if it has one. `operand` says that an
operator could go on from here. -/
def close (s : Scope) (operand : Bool) : Reader Unit :=
  skip (closeLength ⟨s.language.typed, operand, false⟩)

/-- Passes over a gap in which the statement does not end. -/
def link (s : Scope) (operand : Bool) : Reader Unit :=
  skip (joinLength ⟨s.language.typed, operand, false⟩)

/-- The offset of this place. -/
def offset : Reader Nat := fun c => some (c.offset, c)

theorem bind_apply {α β : Type} (r : Reader α) (next : α → Reader β) (c : Cursor) :
    (r >>= next) c = match r c with
      | none => none
      | some (value, d) => next value d := by
  cases h : r c with
  | none => simp [Bind.bind, StateT.bind, Option.bind, h]
  | some pair => simp [Bind.bind, StateT.bind, Option.bind, h]

end Reader

end ModuleRepair.Script
