import ModuleRepair.Text.Utf8
import ModuleRepair.Script.Token

/-!
# Grammars

A pattern says what may stand at one place of a text; a grammar gives a pattern to each of its
rules. Choice is ordered and repetition takes as much as it can, so a pattern matches in at most
one way. A cursor is a place in a text: a match moves it on and never back, and keeps its offset
right (`Cursor.advance_total`, `match_total`).
-/
namespace ModuleRepair.Script

open ModuleRepair.Text

/-- A place in a text: its offset in bytes, and the text from there on. -/
structure Cursor where
  offset : Nat
  rest : List Char
  deriving DecidableEq, Repr

namespace Cursor

/-- The beginning of a text. -/
def start (s : List Char) : Cursor := ⟨0, s⟩

/-- The place a number of characters further on. -/
def advance : Nat → Cursor → Cursor
  | 0, c => c
  | _ + 1, ⟨offset, []⟩ => ⟨offset, []⟩
  | n + 1, ⟨offset, c :: rest⟩ => advance n ⟨offset + c.utf8Size, rest⟩

/-- The size in bytes of the whole text. -/
def total (c : Cursor) : Nat :=
  c.offset + byteSize c.rest

@[simp] theorem advance_total (n : Nat) (c : Cursor) : (c.advance n).total = c.total := by
  induction n generalizing c with
  | zero => rfl
  | succ n ih =>
    obtain ⟨offset, rest⟩ := c
    cases rest with
    | nil => rfl
    | cons c rest => rw [advance, ih]; simp [total, Nat.add_assoc]

theorem advance_rest (n : Nat) (c : Cursor) : (c.advance n).rest = c.rest.drop n := by
  induction n generalizing c with
  | zero => rfl
  | succ n ih =>
    obtain ⟨offset, rest⟩ := c
    cases rest with
    | nil => rfl
    | cons c rest => simp [advance, ih]

/-- The text between two places. -/
def textTo (c stop : Cursor) : List Char :=
  takeBytes (stop.offset - c.offset) c.rest

/-- The place behind a token, if it stands here. -/
def token? (measure : List Char → Option Nat) (c : Cursor) : Option Cursor :=
  (measure c.rest).map (c.advance ·)

/-- The place behind blanks and comments. -/
def skipGap (c : Cursor) : Cursor :=
  c.advance (gapLength c.rest)

end Cursor

/-- What may stand at one place of a text; `ρ` holds the names of the rules. -/
inductive Pattern (ρ : Type) where
  /-- Nothing is needed. -/
  | done
  /-- One token, given by its measure. -/
  | token (measure : List Char → Option Nat)
  /-- One after the other. -/
  | both (first second : Pattern ρ)
  /-- The second where the first does not match. -/
  | either (first second : Pattern ρ)
  /-- As often as it matches. -/
  | many (p : Pattern ρ)
  /-- Nothing is taken, and the pattern must not match. -/
  | absent (p : Pattern ρ)
  /-- The pattern of a rule. -/
  | rule (name : ρ)

namespace Pattern

variable {ρ : Type}

instance : Append (Pattern ρ) := ⟨both⟩

instance : OrElse (Pattern ρ) := ⟨fun p q => either p (q ())⟩

/-- A pattern that may be missing. -/
def maybe (p : Pattern ρ) : Pattern ρ :=
  either p done

/-- Nothing is taken, and the pattern must match. -/
def ahead (p : Pattern ρ) : Pattern ρ :=
  absent (absent p)

def never : Pattern ρ :=
  token fun _ => none

/-- A pattern for some languages only. -/
def only (holds : Bool) (p : Pattern ρ) : Pattern ρ :=
  if holds then p else never

/-- The place behind a match. The fuel bounds the depth of rules and the number of repetitions. -/
def run (grammar : ρ → Pattern ρ) : Nat → Pattern ρ → Cursor → Option Cursor
  | 0, _, _ => none
  | _ + 1, done, c => some c
  | _ + 1, token measure, c => c.token? measure
  | fuel + 1, both p q, c =>
    match run grammar fuel p c with
    | some d => run grammar fuel q d
    | none => none
  | fuel + 1, either p q, c =>
    match run grammar fuel p c with
    | some d => some d
    | none => run grammar fuel q c
  | fuel + 1, many p, c =>
    match run grammar fuel p c with
    | some d => run grammar fuel (many p) d
    | none => some c
  | fuel + 1, absent p, c =>
    match run grammar fuel p c with
    | some _ => none
    | none => some c
  | fuel + 1, rule name, c => run grammar fuel (grammar name) c

/-- A match keeps the size of the text. -/
theorem run_total (grammar : ρ → Pattern ρ) (fuel : Nat) (p : Pattern ρ) (c d : Cursor)
    (h : run grammar fuel p c = some d) : d.total = c.total := by
  induction fuel generalizing p c d with
  | zero => simp [run] at h
  | succ fuel ih =>
    cases p with
    | done => simp [run] at h; rw [h]
    | token measure =>
      simp only [run, Cursor.token?, Option.map_eq_some_iff] at h
      obtain ⟨n, _, rfl⟩ := h
      simp
    | both p q =>
      simp only [run] at h
      split at h
      · next e hp => rw [ih q e d h, ih p c e hp]
      · simp at h
    | either p q =>
      simp only [run] at h
      split at h
      · next e hp => cases h; exact ih p c _ hp
      · exact ih q c d h
    | many p =>
      simp only [run] at h
      split at h
      · next e hp => rw [ih (many p) e d h, ih p c e hp]
      · cases h; rfl
    | absent p =>
      simp only [run] at h
      split at h
      · simp at h
      · cases h; rfl
    | rule name => simp only [run] at h; exact ih _ c d h

end Pattern

end ModuleRepair.Script
