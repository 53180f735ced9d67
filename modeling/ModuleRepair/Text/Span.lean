import ModuleRepair.Text.Utf8

/-!
# Spans of a text

A span is a piece of a text, given by the byte offsets of its two ends. Replacing a span keeps what
stands before and behind it (`splice_append`).
-/
namespace ModuleRepair.Text

/-- A piece of a text, from the offset `start` up to the offset `stop`. -/
structure Span where
  start : Nat
  stop : Nat
  deriving DecidableEq, Repr

def slice (s : List Char) (span : Span) : List Char :=
  takeBytes (span.stop - span.start) (dropBytes span.start s)

theorem slice_append (a b c : List Char) :
    slice (a ++ b ++ c) ⟨byteSize a, byteSize a + byteSize b⟩ = b := by
  simp [slice, List.append_assoc]

def splice (s : List Char) (span : Span) (replacement : List Char) : List Char :=
  takeBytes span.start s ++ replacement ++ dropBytes span.stop s

/-- A span between characters is replaced exactly. -/
theorem splice_append (a b c r : List Char) :
    splice (a ++ b ++ c) ⟨byteSize a, byteSize a + byteSize b⟩ r = a ++ r ++ c := by
  have h : byteSize a + byteSize b = byteSize (a ++ b) := by simp
  rw [splice, h, dropBytes_byteSize, List.append_assoc a b c, takeBytes_byteSize]

end ModuleRepair.Text
