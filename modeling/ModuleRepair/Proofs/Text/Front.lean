import Mathlib.Data.List.TakeDrop
import Mathlib.Data.List.TakeWhile
import ModuleRepair.Text.Lines

/-!
# Texts at the front of other texts

A search answers for the first place of a text where its pattern fits. So it passes over a part of
the text in which the pattern fits nowhere (`findFirst?_append`), and its pattern fits in front of
some end of the text (`findFirst?_suffix`).
-/
namespace ModuleRepair.Text

variable {α : Type} {start t rest : List Char} {c q : Char}

/-- What stands behind a text at the front of another one. -/
theorem afterStart?_eq_some_iff {start s rest : List Char} :
    afterStart? start s = some rest ↔ s = start ++ rest := by
  simp only [afterStart?, Option.ite_none_right_eq_some, Option.some.injEq,
    List.isPrefixOf_iff_prefix]
  constructor
  · rintro ⟨⟨rest', rfl⟩, rfl⟩
    simp
  · rintro rfl
    simp

theorem afterStart?_append (start rest : List Char) :
    afterStart? start (start ++ rest) = some rest :=
  afterStart?_eq_some_iff.mpr rfl

theorem afterStart?_eq_none_of_head (some : t ≠ []) (missing : c ∉ t) :
    afterStart? (c :: start) (t ++ rest) = none := by
  refine Option.eq_none_iff_forall_ne_some.mpr fun behind found => ?_
  obtain ⟨d, t, rfl⟩ := List.exists_cons_of_ne_nil some
  obtain ⟨same, -⟩ := List.cons.inj (afterStart?_eq_some_iff.mp found)
  exact missing (same ▸ List.mem_cons_self)

/-- A text up to a mark, in front of which another text stands that the mark is not in. -/
theorem prefix_of_stops (stops : q ∉ start) (h : start <+: t ++ q :: rest) : start <+: t := by
  obtain ⟨behind, same⟩ := h
  rcases List.append_eq_append_iff.mp same with ⟨more, rfl, -⟩ | ⟨more, rfl, mark⟩
  · exact List.prefix_append start more
  · cases more with
    | nil => simp
    | cons d more =>
      obtain ⟨rfl, -⟩ := List.cons.inj mark
      exact absurd (by simp) stops

/-- A letter that the text up to a mark lacks. -/
theorem afterStart?_eq_none_of_stops (stops : q ∉ start) (there : c ∈ start) (missing : c ∉ t)
    (more : List Char) : afterStart? (start ++ more) (t ++ q :: rest) = none := by
  refine Option.eq_none_iff_forall_ne_some.mpr fun behind found => ?_
  have inFront : start <+: t ++ q :: rest :=
    ⟨more ++ behind, by rw [afterStart?_eq_some_iff.mp found, List.append_assoc]⟩
  exact missing ((prefix_of_stops stops inFront).subset there)

/-! ## Runs of characters -/

section

variable {p : Char → Bool} {s : List Char}

/-- A run of characters that ends where another kind of character follows. -/
theorem takeWhile_exact (inside : ∀ c ∈ s, p c = true)
    (stops : ∀ c ∈ rest.head?, p c = false) : (s ++ rest).takeWhile p = s := by
  rw [List.takeWhile_append_of_pos inside]
  cases rest with
  | nil => simp
  | cons d rest => simp [stops d rfl]

theorem dropWhile_exact (inside : ∀ c ∈ s, p c = true)
    (stops : ∀ c ∈ rest.head?, p c = false) : (s ++ rest).dropWhile p = rest := by
  rw [List.dropWhile_append_of_pos inside]
  cases rest with
  | nil => rfl
  | cons d rest => simp [stops d rfl]

theorem head?_dropWhile (p : Char → Bool) (s : List Char) :
    ∀ c ∈ (s.dropWhile p).head?, p c = false := by
  intro c hc
  have stops := List.head?_dropWhile_not p s
  rw [hc] at stops
  exact stops

theorem span_eq_iff : s.span p = (t, rest) ↔
    s = t ++ rest ∧ (∀ c ∈ t, p c = true) ∧ ∀ c ∈ rest.head?, p c = false := by
  rw [List.span_eq_takeWhile_dropWhile, Prod.mk.injEq]
  constructor
  · rintro ⟨rfl, rfl⟩
    exact ⟨List.takeWhile_append_dropWhile.symm, fun c hc => List.mem_takeWhile_imp hc,
      head?_dropWhile p s⟩
  · rintro ⟨rfl, inside, stops⟩
    exact ⟨takeWhile_exact inside stops, dropWhile_exact inside stops⟩

end

/-! ## Searches -/

/-- A pattern fits in front of no end of a text with a rest behind it, the rest apart. -/
def FitsNowhere (pattern : List Char → Option α) (front rest : List Char) : Prop :=
  ∀ t, t <:+ front → t ≠ [] → pattern (t ++ rest) = none

theorem FitsNowhere.append {pattern : List Char → Option α} {front middle : List Char}
    (inFront : FitsNowhere pattern front (middle ++ rest))
    (inMiddle : FitsNowhere pattern middle rest) : FitsNowhere pattern (front ++ middle) rest := by
  intro t ⟨before, same⟩ some
  rcases List.append_eq_append_iff.mp same with ⟨more, rfl, rfl⟩ | ⟨more, rfl, rfl⟩
  · cases more with
    | nil => exact inMiddle middle (List.suffix_refl _) some
    | cons c more =>
      rw [List.append_assoc]
      exact inFront (c :: more) (List.suffix_append before _) (List.cons_ne_nil c more)
  · exact inMiddle t (List.suffix_append more t) some

theorem findFirst?_append {pattern : List Char → Option α} {front : List Char}
    (nowhere : FitsNowhere pattern front rest) : findFirst? pattern (front ++ rest) =
      (findFirst? pattern rest).map fun found => (front.length + found.1, found.2) := by
  induction front with
  | nil => simp
  | cons c front ih =>
    have here : pattern (c :: (front ++ rest)) = none :=
      nowhere (c :: front) (List.suffix_refl _) (List.cons_ne_nil _ _)
    have later := ih fun t ht => nowhere t (ht.trans (List.suffix_cons c front))
    rw [List.cons_append, findFirst?, here]
    simp only [later, Option.map_map]
    congr 1
    funext found
    simp only [Function.comp_apply, List.length_cons, Prod.mk.injEq, and_true]
    omega

theorem findFirst?_here {pattern : List Char → Option α} {s : List Char} {a : α}
    (h : pattern s = some a) : findFirst? pattern s = some (0, a) := by
  cases s <;> simp [findFirst?, h]

/-- A search finds what its pattern takes from the front of some end of the text. -/
theorem findFirst?_suffix {pattern : List Char → Option α} {s : List Char} {n : Nat} {a : α}
    (found : findFirst? pattern s = some (n, a)) : ∃ t, t <:+ s ∧ pattern t = some a := by
  induction s generalizing n with
  | nil =>
    obtain ⟨a, here, same⟩ := Option.map_eq_some_iff.mp found
    cases same
    exact ⟨[], List.suffix_refl _, here⟩
  | cons c s ih =>
    unfold findFirst? at found
    split at found
    · next here =>
      cases found
      exact ⟨_, List.suffix_refl _, here⟩
    · obtain ⟨⟨m, a⟩, later, same⟩ := Option.map_eq_some_iff.mp found
      cases same
      obtain ⟨t, ht, fits⟩ := ih later
      exact ⟨t, ht.trans (List.suffix_cons c s), fits⟩

end ModuleRepair.Text
