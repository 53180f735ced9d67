import ModuleRepair.Text.Span

/-!
# Slices of longer texts

The text in a span is the same whatever stands behind (`Span.Of.slice_append`), and the same in a
span that lies further on by what stands in front (`slice_later`).
-/
namespace ModuleRepair.Text

/-- The same span, some bytes further on. -/
def Span.later (n : Nat) (span : Span) : Span :=
  ⟨span.start + n, span.stop + n⟩

/-- Whether a span of a text starts and stops between characters. -/
def Span.Of (s : List Char) (span : Span) : Prop :=
  ∃ before piece after, s = before ++ piece ++ after ∧
    span = ⟨byteSize before, byteSize before + byteSize piece⟩

theorem Span.Of.slice_append {s : List Char} {span : Span} (h : span.Of s) (t t' : List Char) :
    slice (s ++ t) span = slice (s ++ t') span := by
  obtain ⟨before, piece, after, rfl, rfl⟩ := h
  rw [List.append_assoc _ after, List.append_assoc _ after, Text.slice_append, Text.slice_append]

theorem byteSize_eq_zero {s : List Char} : byteSize s = 0 ↔ s = [] := by
  cases s with
  | nil => simp
  | cons c s =>
    have positive := c.utf8Size_pos
    rw [byteSize_cons]
    exact iff_of_false (by omega) nofun

/-- Two texts that start with pieces of one size start with the same piece. -/
theorem append_inj_byteSize {a b c d : List Char} (same : a ++ b = c ++ d)
    (size : byteSize a = byteSize c) : a = c ∧ b = d := by
  have front : takeBytes (byteSize a) (a ++ b) = takeBytes (byteSize c) (c ++ d) := by
    rw [same, size]
  rw [takeBytes_byteSize, takeBytes_byteSize] at front
  subst front
  exact ⟨rfl, List.append_cancel_left same⟩

theorem dropBytes_add (n : Nat) (s t : List Char) :
    dropBytes (n + byteSize s) (s ++ t) = dropBytes n t := by
  induction s with
  | nil => rfl
  | cons c s ih =>
    have some : n + (c.utf8Size + byteSize s) ≠ 0 := by
      have positive := c.utf8Size_pos
      omega
    have less : n + (c.utf8Size + byteSize s) - c.utf8Size = n + byteSize s := by omega
    rw [byteSize_cons, List.cons_append, dropBytes, if_neg some, less, ih]

theorem slice_later (s t : List Char) (span : Span) :
    slice (s ++ t) (span.later (byteSize s)) = slice t span := by
  rw [slice, slice, Span.later, dropBytes_add, Nat.add_sub_add_right]

end ModuleRepair.Text
