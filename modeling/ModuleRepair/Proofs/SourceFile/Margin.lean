import Mathlib.Data.List.Induction
import ModuleRepair.Proofs.Script.Ends
import ModuleRepair.Proofs.SourceFile.WholeLines
import ModuleRepair.Proofs.Text.Bytes
import ModuleRepair.Proofs.Text.Crlf

/-!
# What goes with a removed statement

Removing a piece of a text takes blanks at its two sides away, and nothing else
(`removeStatement_text`). Blanks in front of the piece go only when they begin a line, or when
nothing is left behind them. In a text with Windows line ends, what is left has such line ends
unless the piece stands alone on a last line without an end (`Margin.inCrlf_iff`).
-/
namespace ModuleRepair.SourceFile

open ModuleRepair.Text ModuleRepair.Script

/-- The characters behind the last line feed. -/
def lastLine (s : List Char) : List Char :=
  (s.reverse.takeWhile (· != '\n')).reverse

/-- Whether only blanks stand on the last line beside a piece of a text, and the line has no end.
There is another line in front. -/
structure EndsAlone (before after : List Char) : Prop where
  lines : '\n' ∈ before
  unended : '\n' ∉ after
  left_blank : ∀ c ∈ lastLine before, isAsciiBlank c = true
  right_blank : ∀ c ∈ after, isAsciiBlank c = true

/-- Where the text at both sides of a removed piece is cut: beside the piece, at the ends of lines,
or at the ends of the text. Of a last line without an end, the line feed in front goes. -/
inductive Cuts (before after kept left right rest : List Char) : Prop
  | inLine (shared : ¬EndsAlone before after) (left_nil : left = []) (right_nil : right = [])
  | lines (begins : ∀ c ∈ kept.getLast?, c = '\n') (ends : right.getLast? = some '\n')
  | whole (one : '\n' ∉ before) (kept_nil : kept = []) (rest_nil : rest = [])
  | lastLine (alone : EndsAlone before after) (feed : left.head? = some '\n') (rest_nil : rest = [])

/-- The text at both sides of a removed piece: what goes with it, and what is kept. -/
structure Margin (before after : List Char) where
  kept : List Char
  left : List Char
  right : List Char
  rest : List Char
  before_eq : before = kept ++ left
  after_eq : after = right ++ rest
  left_blank : ∀ c ∈ left, isAsciiBlank c = true
  right_blank : ∀ c ∈ right, isAsciiBlank c = true
  cuts : Cuts before after kept left right rest

namespace Margin

variable {before after text gap : List Char}

/-- A text around a piece with what goes with it. -/
theorem around (m : Margin before after) (piece : List Char) :
    before ++ piece ++ after = m.kept ++ (m.left ++ piece ++ m.right) ++ m.rest :=
  calc before ++ piece ++ after
    _ = (m.kept ++ m.left) ++ piece ++ (m.right ++ m.rest) := by
      rw [← m.before_eq, ← m.after_eq]
    _ = m.kept ++ (m.left ++ piece ++ m.right) ++ m.rest := by simp only [List.append_assoc]

theorem stop_eq (m : Margin before after) (piece : List Char) :
    byteSize before + byteSize piece + byteSize m.right =
      byteSize m.kept + byteSize (m.left ++ piece ++ m.right) := by
  have size := congrArg byteSize m.before_eq
  simp only [byteSize_append] at size ⊢
  omega

/-- Blanks in front of the piece begin a line, or nothing is left behind them. -/
theorem edge (m : Margin before after) :
    m.left = [] ∨ (∀ c ∈ m.kept.getLast?, c = '\n') ∨ m.left.head? = some '\n' ∧ m.rest = [] := by
  cases m.cuts with
  | inLine _ left => exact .inl left
  | lines begins => exact .inr (.inl begins)
  | whole _ kept => exact .inr (.inl (by simp [kept]))
  | lastLine _ feed rest => exact .inr (.inr ⟨feed, rest⟩)

/-- Nothing of what can be seen goes with a removed piece. -/
theorem kept_of_closed (m : Margin (text ++ gap) after) (closed : Closed ['\n'] false text) :
    ∃ left, m.kept = text ++ left ∧ gap = left ++ m.left := by
  rcases List.append_eq_append_iff.mp m.before_eq with ⟨left, kept, gap⟩ | ⟨more, same, gone⟩
  · exact ⟨left, kept, gap⟩
  · cases more with
    | nil => exact ⟨[], by simpa using same.symm, by simpa using gone.symm⟩
    | cons c more =>
      have shown : Shown ['\n'] (m.kept ++ c :: more) := by
        rw [← same]
        exact closed.resolve_right fun empty => by simp [same] at empty
      have blank : ∀ x ∈ c :: more, isAsciiBlank x = true := fun x there =>
        m.left_blank x (gone ▸ List.mem_append_left gap there)
      obtain ⟨unbroken, last, kept, visible⟩ := shown.of_append_blank blank
      rcases m.edge with none | feed | ⟨feed, -⟩
      · rw [gone] at none
        cases none
      · exact absurd (List.mem_singleton.mpr (feed last kept)) visible
      · rw [gone] at feed
        obtain rfl : c = '\n' := Option.some.inj feed
        exact absurd List.mem_cons_self (unbroken _ List.mem_cons_self)

/-- The gap in front of a removed piece goes on with what is kept behind it. -/
theorem gapLength_front {left : List Char} (m : Margin before after) (kept : m.kept = text ++ left)
    (state : gapState .blank (left ++ m.left) = some .blank) :
    gapLength (left ++ m.rest) = left.length + gapLength m.rest := by
  rcases m.edge with none | feed | ⟨-, none⟩
  · rw [none, List.append_nil] at state
    exact gapLength_append state m.rest
  · rcases List.eq_nil_or_concat left with rfl | ⟨left, c, rfl⟩
    · simp
    · rw [List.concat_eq_append] at kept state ⊢
      obtain rfl : c = '\n' := feed c (by simp [kept])
      rw [List.append_assoc] at state
      exact gapLength_append (gapState_line m.left_blank state) m.rest
  · obtain ⟨_, outside, front⟩ := gapState_of_blank m.left_blank state
    rw [none, List.append_nil, gapLength_eq_length front outside]
    rfl

/-- Behind a removed piece, blanks go. -/
theorem gapLength_behind (m : Margin before after) :
    gapLength (m.right ++ m.rest) = m.right.length + gapLength m.rest :=
  gapLength_append (gapState_blanks m.right_blank) m.rest

/-- What is left of a text with Windows line ends has such line ends, unless the piece stood alone
on a last line without an end: then the carriage return in front of the line is left. -/
theorem inCrlf_iff (m : Margin before after) (front : InCrlf before) (back : InCrlf after) :
    InCrlf (m.kept ++ m.rest) ↔ ¬EndsAlone before after := by
  have front' := m.before_eq ▸ front
  have back' := m.after_eq ▸ back
  cases m.cuts with
  | inLine shared left right =>
    rw [left, List.append_nil] at front'
    rw [right, List.nil_append] at back'
    exact iff_of_true (front'.append back') shared
  | lines begins ends =>
    have kept : m.kept.getLast? ≠ some '\r' := fun last => by cases begins _ last
    have right : m.right.getLast? ≠ some '\r' := by simp [ends]
    have there : '\n' ∈ after := by
      rw [m.after_eq]
      exact List.mem_append_left _ (List.mem_of_getLast? ends)
    have first := (front'.of_append (.of_left kept)).1
    have second := (back'.of_append (.of_left right)).2
    exact iff_of_true (first.append second) fun alone => alone.unended there
  | whole one kept rest =>
    rw [kept, rest]
    exact iff_of_true .nil fun alone => one alone.lines
  | lastLine alone feed rest =>
    obtain ⟨left, split⟩ := List.head?_eq_some_iff.mp feed
    rw [split] at front'
    have last := front'.before_feed m.kept left rfl
    rw [rest, List.append_nil]
    exact iff_of_false (fun crlf => crlf.getLast?_ne last) (not_not_intro alone)

end Margin

/-! ## Whole lines -/

section

variable {s before after : List Char}

/-- The last line of a text is the same among its bytes. -/
theorem behindFeed_bytesOf (s : List Char) : behindFeed (bytesOf s) = bytesOf (lastLine s) := by
  induction s using List.reverseRecOn with
  | nil => rfl
  | append_singleton init c ih =>
    rw [bytesOf_append]
    by_cases feed : c = '\n'
    · subst feed
      have begins : BeginsLine (bytesOf init ++ bytesOf ['\n']) := by
        simp [BeginsLine, show bytesOf ['\n'] = [lineFeed] from rfl]
      rw [behindFeed_begins begins]
      simp [lastLine]
    · have unbroken : lineFeed ∉ bytesOf [c] := by
        rw [lineFeed_mem_bytesOf, List.mem_singleton]
        exact Ne.symm feed
      have line : lastLine (init ++ [c]) = lastLine init ++ [c] := by simp [lastLine, feed]
      rw [behindFeed_append unbroken, ih, line, bytesOf_append]

/-- A text whose bytes are empty or end with a line feed is empty or ends with one. -/
theorem getLast?_of_begins (begins : BeginsLine (bytesOf s)) : ∀ c ∈ s.getLast?, c = '\n' := by
  rcases List.eq_nil_or_concat s with rfl | ⟨init, c, rfl⟩
  · nofun
  · obtain ⟨front, b, bytes⟩ :=
      (List.eq_nil_or_concat (String.utf8EncodeChar c)).resolve_left String.utf8EncodeChar_ne_nil
    have last : b = lineFeed := begins b (by simp [bytes])
    have same := isFeed_of_mem (b := b) (c := c) (by simp [bytes])
    intro c' here
    obtain rfl : c = c' := by simpa using here
    simpa [last] using same

theorem EndsAlone.not_sharesLine (alone : EndsAlone before after) :
    ¬SharesLine (bytesOf before) (bytesOf after) := by
  rw [sharesLine_iff, not_not, behindFeed_bytesOf, blank_bytesOf_iff]
  refine ⟨alone.left_blank, fun b there => ?_⟩
  exact blank_bytesOf_iff.mpr alone.right_blank b (List.takeWhile_sublist _ |>.subset there)

variable {a b c d : List Char}

/-- How the text around a piece is cut, from how its bytes are. -/
theorem cuts_of_widened (widened : Widened (bytesOf a) (bytesOf b) (bytesOf c) (bytesOf d)) :
    Cuts (a ++ b) (c ++ d) a b c d := by
  by_cases feed : '\n' ∈ c ++ d
  · obtain ⟨begins, ⟨line, ends, -⟩, -⟩ :=
      widened.ended (by rwa [← bytesOf_append, lineFeed_mem_bytesOf])
    refine .lines (getLast?_of_begins begins) ?_
    have last : BeginsLine (bytesOf c) := by simp [ends, BeginsLine]
    rcases List.eq_nil_or_concat c with rfl | ⟨init, x, rfl⟩
    · simp at ends
    · simpa using getLast?_of_begins last x (by simp)
  · obtain ⟨rest, ⟨line, left, unbroken⟩ | ⟨kept, unbroken⟩⟩ :=
      widened.unended (by rwa [← bytesOf_append, lineFeed_mem_bytesOf])
    · refine .lastLine ⟨?_, feed, ?_, ?_⟩ (head?_of_feed left) (bytesOf_eq_nil.mp rest)
      · refine List.mem_append_right a (lineFeed_mem_bytesOf.mp ?_)
        rw [left]
        exact List.mem_cons_self
      · have last : behindFeed (bytesOf (a ++ b)) = line := by
          rw [bytesOf_append, left, List.append_cons, behindFeed_append unbroken,
            behindFeed_begins (by simp [BeginsLine]), List.nil_append]
        rw [← blank_bytesOf_iff, ← behindFeed_bytesOf, last]
        intro x there
        exact widened.left_blank x (left ▸ List.mem_cons_of_mem _ there)
      · rw [bytesOf_eq_nil.mp rest, List.append_nil]
        exact blank_bytesOf_iff.mp widened.right_blank
    · have kept_nil : a = [] := bytesOf_eq_nil.mp kept
      refine .whole ?_ kept_nil (bytesOf_eq_nil.mp rest)
      rwa [kept_nil, List.nil_append, ← lineFeed_mem_bytesOf]

end

/-- Whole lines reach over a margin. -/
theorem wholeLines_margin (before piece after : List Char) : ∃ m : Margin before after,
    wholeLines (bytesOf (before ++ piece ++ after))
        ⟨byteSize before, byteSize before + byteSize piece⟩ =
      ⟨byteSize m.kept, byteSize before + byteSize piece + byteSize m.right⟩ := by
  simp only [bytesOf_append, ← length_bytesOf]
  by_cases others : SharesLine (bytesOf before) (bytesOf after)
  · have beside : ¬EndsAlone before after := fun alone => alone.not_sharesLine others
    exact ⟨⟨before, [], [], after, by simp, rfl, by simp, by simp, .inLine beside rfl rfl⟩,
      wholeLines_of_shares others⟩
  · obtain ⟨kept, left, right, rest, before_eq, after_eq, widened, reach⟩ := exists_widened others
    obtain ⟨a, b, rfl, rfl, rfl⟩ :=
      exists_cut_behind (fun b there => ascii_of_blank (widened.left_blank b there)) before_eq
    obtain ⟨c, d, rfl, rfl, rfl⟩ :=
      exists_cut_front (fun b there => ascii_of_blank (widened.right_blank b there)) after_eq
    exact ⟨⟨a, b, c, d, rfl, rfl, blank_bytesOf_iff.mp widened.left_blank,
      blank_bytesOf_iff.mp widened.right_blank, cuts_of_widened widened⟩, reach⟩

/-- The text without a piece of it is that without the blanks that go with the piece. -/
theorem removeStatement_text {f : SourceFile} {before piece after : List Char}
    (whole : f.text.toList = before ++ piece ++ after) : ∃ m : Margin before after,
      (f.removeStatement ⟨byteSize before, byteSize before + byteSize piece⟩).text.toList =
        m.kept ++ m.rest := by
  obtain ⟨m, span⟩ := wholeLines_margin before piece after
  refine ⟨m, ?_⟩
  rw [removeStatement, replaceSpan, whole, span, m.stop_eq, m.around, splice_append]
  simp

end ModuleRepair.SourceFile
