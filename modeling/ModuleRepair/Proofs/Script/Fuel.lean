import ModuleRepair.Proofs.Script.Forward

/-!
# How much fuel a match needs

A grammar is bounded when each of its rules takes something and calls, before it does, only rules
below its own height (`Pattern.Bounded`). A match in a bounded grammar needs fuel in proportion to
the text, and more fuel changes nothing; nor does the place of the text (`Pattern.run_later`).
-/
namespace ModuleRepair.Script

open ModuleRepair.Text

namespace Cursor

/-- The same text, some bytes further on. -/
def later (n : Nat) (c : Cursor) : Cursor :=
  ⟨c.offset + n, c.rest⟩

variable {n : Nat} {c d : Cursor}

@[simp] theorem later_rest (n : Nat) (c : Cursor) : (c.later n).rest = c.rest := rfl

@[simp] theorem later_offset (n : Nat) (c : Cursor) : (c.later n).offset = c.offset + n := rfl

theorem advance_later (n m : Nat) (c : Cursor) : (c.later n).advance m = (c.advance m).later n := by
  induction m generalizing c with
  | zero => rfl
  | succ m ih =>
    obtain ⟨offset, rest⟩ := c
    cases rest with
    | nil => rfl
    | cons a rest =>
      have moved : offset + n + a.utf8Size = offset + a.utf8Size + n := Nat.add_right_comm ..
      have behind := ih ⟨offset + a.utf8Size, rest⟩
      simp only [later, advance] at behind ⊢
      rw [moved]
      exact behind

theorem textTo_later (n : Nat) (c d : Cursor) : (c.later n).textTo (d.later n) = c.textTo d := by
  simp [textTo, Nat.add_sub_add_right]

theorem skipGap_later (n : Nat) (c : Cursor) : (c.later n).skipGap = c.skipGap.later n :=
  advance_later n _ c

theorem token?_later (n : Nat) (measure : List Char → Option Nat) (c : Cursor) :
    (c.later n).token? measure = (c.token? measure).map (·.later n) := by
  simp [token?, advance_later, Function.comp_def]

theorem Reaches.length_le (h : c.Reaches d) : d.rest.length ≤ c.rest.length := by
  obtain ⟨taken, rest, -⟩ := h
  simp [rest]

theorem Reaches.length_lt (h : c.Reaches d) (progress : c.offset < d.offset) :
    d.rest.length < c.rest.length := by
  obtain ⟨taken, rest, offset⟩ := h
  have some : taken ≠ [] := by
    rintro rfl
    exact absurd offset (by simp; omega)
  have long := List.length_pos_iff.mpr some
  rw [rest, List.length_append]
  omega

end Cursor

namespace Pattern

variable {ρ : Type}

/-- A pattern that takes at least one character wherever it matches, as long as the rules do. -/
def Takes : Pattern ρ → Prop
  | done => False
  | token measure => measure [] = none ∧ ∀ s, measure s ≠ some 0
  | both p q => Takes p ∨ Takes q
  | either p q => Takes p ∧ Takes q
  | many _ => False
  | absent _ => False
  | rule _ => True

open Classical in
/-- A pattern that calls, before it takes anything, only rules that are at least one below a bound,
and that repeats nothing that takes nothing. Behind a piece of the text the bound is `slope`
higher. -/
def Within (height : ρ → Nat) (slope : Nat) : Nat → Pattern ρ → Prop
  | k, done => 0 < k
  | k, token _ => 0 < k
  | k, both p q => 0 < k ∧ Within height slope (k - 1) p ∧
      Within height slope (if Takes p then k - 1 + slope else k - 1) q
  | k, either p q => 0 < k ∧ Within height slope (k - 1) p ∧ Within height slope (k - 1) q
  | k, many p => 0 < k ∧ Takes p ∧ Within height slope (k - 1) p
  | k, absent p => 0 < k ∧ Within height slope (k - 1) p
  | k, rule name => height name < k

section

variable {height : ρ → Nat} {slope k : Nat} {p q : Pattern ρ}

@[simp] theorem takes_append : Takes (p ++ q) ↔ Takes p ∨ Takes q := Iff.rfl

@[simp] theorem takes_or : Takes (p <|> q) ↔ Takes p ∧ Takes q := Iff.rfl

@[simp] theorem takes_either : Takes (either p q) ↔ Takes p ∧ Takes q := Iff.rfl

@[simp] theorem not_takes_done : ¬Takes (done : Pattern ρ) := id

@[simp] theorem not_takes_maybe : ¬Takes (maybe p) := And.right

@[simp] theorem not_takes_many : ¬Takes (many p) := id

@[simp] theorem not_takes_absent : ¬Takes (absent p) := id

@[simp] theorem not_takes_ahead : ¬Takes (ahead p) := id

@[simp] theorem takes_only {holds : Bool} : Takes (only holds p) ↔ (holds = true → Takes p) := by
  cases holds with
  | false => exact ⟨nofun, fun _ => ⟨rfl, fun _ => nofun⟩⟩
  | true => exact ⟨fun h _ => h, fun h => h rfl⟩

theorem Within.positive (h : Within height slope k p) : 0 < k := by
  cases p with
  | done => exact h
  | token _ => exact h
  | rule _ => exact Nat.zero_lt_of_lt h
  | _ => exact h.1

open Classical in
@[simp] theorem within_append : Within height slope k (p ++ q) ↔ 0 < k ∧
    Within height slope (k - 1) p ∧
      Within height slope (if Takes p then k - 1 + slope else k - 1) q := Iff.rfl

@[simp] theorem within_or : Within height slope k (p <|> q) ↔
    0 < k ∧ Within height slope (k - 1) p ∧ Within height slope (k - 1) q := Iff.rfl

@[simp] theorem within_either : Within height slope k (either p q) ↔
    0 < k ∧ Within height slope (k - 1) p ∧ Within height slope (k - 1) q := Iff.rfl

@[simp] theorem within_done : Within height slope k done ↔ 0 < k := Iff.rfl

@[simp] theorem within_token {measure : List Char → Option Nat} :
    Within height slope k (token measure) ↔ 0 < k := Iff.rfl

@[simp] theorem within_maybe : Within height slope k (maybe p) ↔
    0 < k ∧ Within height slope (k - 1) p ∧ 0 < k - 1 := Iff.rfl

@[simp] theorem within_many : Within height slope k (many p) ↔
    0 < k ∧ Takes p ∧ Within height slope (k - 1) p := Iff.rfl

@[simp] theorem within_absent : Within height slope k (absent p) ↔
    0 < k ∧ Within height slope (k - 1) p := Iff.rfl

@[simp] theorem within_ahead : Within height slope k (ahead p) ↔
    0 < k ∧ 0 < k - 1 ∧ Within height slope (k - 1 - 1) p := Iff.rfl

@[simp] theorem within_only {holds : Bool} : Within height slope k (only holds p) ↔
    0 < k ∧ (holds = true → Within height slope k p) := by
  cases holds with
  | false => exact ⟨fun h => ⟨h, nofun⟩, And.left⟩
  | true => exact ⟨fun h => ⟨h.positive, fun _ => h⟩, fun h => h.2 rfl⟩

end

/-- A grammar all rules of which take something and stay within their heights. -/
structure Bounded (grammar : ρ → Pattern ρ) (height : ρ → Nat) (slope : Nat) : Prop where
  takes : ∀ name, Takes (grammar name)
  within : ∀ name, Within height slope (height name) (grammar name)
  positive : 0 < slope

variable {grammar : ρ → Pattern ρ} {height : ρ → Nat} {slope : Nat} {fuel : Nat} {p : Pattern ρ}
  {c d : Cursor}

theorem token?_lt {measure : List Char → Option Nat} (takes : Takes (token measure : Pattern ρ))
    (h : c.token? measure = some d) : d.rest.length < c.rest.length := by
  obtain ⟨n, measured, rfl⟩ := Option.map_eq_some_iff.mp h
  have some : 0 < n := Nat.pos_of_ne_zero fun zero => takes.2 c.rest (zero ▸ measured)
  have there : c.rest ≠ [] := fun empty => by
    rw [empty, takes.1] at measured
    cases measured
  have long := List.length_pos_iff.mpr there
  rw [Cursor.advance_rest, List.length_drop]
  omega

theorem Takes.lt (rules : ∀ name, Takes (grammar name)) (takes : Takes p)
    (h : run grammar fuel p c = some d) : d.rest.length < c.rest.length := by
  induction fuel generalizing p c d with
  | zero => cases h
  | succ fuel ih =>
    cases p with
    | done => cases takes
    | token measure => exact token?_lt takes h
    | both p q =>
      simp only [run] at h
      split at h
      · next e first =>
        have before := (Cursor.Reaches.run first).length_le
        have behind := (Cursor.Reaches.run h).length_le
        rcases takes with takes | takes
        · exact Nat.lt_of_le_of_lt behind (ih takes first)
        · exact Nat.lt_of_lt_of_le (ih takes h) before
      · cases h
    | either p q =>
      simp only [run] at h
      split at h
      · next e first =>
        obtain rfl := Option.some.inj h
        exact ih takes.1 first
      · exact ih takes.2 h
    | many p => cases takes
    | absent p => cases takes
    | rule name => exact ih (rules name) h

/-- With enough fuel a match does not depend on the fuel nor on the place of the text. -/
theorem run_later (bounded : Bounded grammar height slope) {k fuel' : Nat}
    (within : Within height slope k p) (enough : slope * c.rest.length + k ≤ fuel)
    (enough' : slope * c.rest.length + k ≤ fuel') (n : Nat) :
    run grammar fuel' p (c.later n) = (run grammar fuel p c).map (·.later n) := by
  induction fuel generalizing p c k fuel' with
  | zero => exact absurd within.positive (by omega)
  | succ fuel ih =>
    have positive := within.positive
    obtain ⟨fuel', rfl⟩ : ∃ m, fuel' = m + 1 := ⟨fuel' - 1, by omega⟩
    obtain ⟨k, rfl⟩ : ∃ m, k = m + 1 := ⟨k - 1, by omega⟩
    have same {q : Pattern ρ} {j : Nat} {d : Cursor} (within : Within height slope j q)
        (h : slope * d.rest.length + j ≤ slope * c.rest.length + k) :
        run grammar fuel' q (d.later n) = (run grammar fuel q d).map (·.later n) :=
      ih within (by omega) (by omega)
    -- Behind a piece of the text, the fuel that the piece would need is left over.
    have left {d : Cursor} (less : d.rest.length < c.rest.length) :
        slope * d.rest.length + slope ≤ slope * c.rest.length :=
      Nat.mul_succ .. ▸ Nat.mul_le_mul_left slope (Nat.succ_le_of_lt less)
    cases p with
    | done => rfl
    | token measure => exact Cursor.token?_later n measure c
    | both p q =>
      obtain ⟨-, first, second⟩ := within
      have here := same first (Nat.le_refl _)
      cases read : run grammar fuel p c with
      | none => simp [run, here, read]
      | some d =>
        simp only [run, here, read, Option.map_some]
        split at second
        · next takes =>
          have less := left (takes.lt bounded.takes read)
          exact same second (by omega)
        · have scaled := Nat.mul_le_mul_left slope (Cursor.Reaches.run read).length_le
          exact same second (by omega)
    | either p q =>
      obtain ⟨-, first, second⟩ := within
      have here := same first (Nat.le_refl _)
      cases read : run grammar fuel p c with
      | none =>
        simp only [run, here, read, Option.map_none]
        exact same second (Nat.le_refl _)
      | some d => simp [run, here, read]
    | many p =>
      obtain ⟨-, takes, inside⟩ := within
      have here := same inside (Nat.le_refl _)
      cases read : run grammar fuel p c with
      | none => simp [run, here, read]
      | some d =>
        have again : Within height slope (k + 1) (many p) := ⟨Nat.succ_pos k, takes, inside⟩
        have less := left (takes.lt bounded.takes read)
        have positive := bounded.positive
        simp only [run, here, read, Option.map_some]
        exact same again (by omega)
    | absent p =>
      have here := same within.2 (Nat.le_refl _)
      cases read : run grammar fuel p c <;> simp [run, here, read]
    | rule name =>
      have below : height name ≤ k := Nat.le_of_lt_succ within
      exact same (bounded.within name) (Nat.add_le_add_left below _)

end Pattern

end ModuleRepair.Script
