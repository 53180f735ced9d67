import Mathlib.Data.List.TakeWhile
import Mathlib.Logic.Basic
import ModuleRepair.SourceFile.Edit

/-!
# Whole lines

A span that is widened to whole lines takes white space at its two sides, and nothing else
(`wholeLines_takes_blanks`). Where something else is on the first or the last line of the span, it
stays as it is. Otherwise there are four outcomes (`Widened`): its lines go with the line feed
behind them, or with the blank line above as well; or there is no line feed behind, and the one in
front goes, if there is one.
-/
namespace ModuleRepair.SourceFile

open ModuleRepair.Text

/-- Something that can be seen is on the line on which the first bytes end, or on the one with which
the second bytes begin. -/
def SharesLine (before after : List UInt8) : Prop :=
  (∃ lines line, before = lines ++ line ∧ lineFeed ∉ line ∧ ∃ b ∈ line, isBlankByte b = false) ∨
    ∃ line lines, after = line ++ lines ∧ lineFeed ∉ line ∧ ∃ b ∈ line, isBlankByte b = false

/-- Bytes behind which a line begins. -/
def BeginsLine (before : List UInt8) : Prop :=
  ∀ b ∈ before.getLast?, b = lineFeed

/-- White space on one line. -/
structure BlankLine (line : List UInt8) : Prop where
  blank : ∀ b ∈ line, isBlankByte b = true
  unbroken : lineFeed ∉ line

/-- What goes with a piece of bytes that shares its lines with nothing: what is kept in front of it,
what goes in front and behind, and the rest. -/
inductive Widened : (kept left right rest : List UInt8) → Prop
  | line {kept left right rest : List UInt8} (begins : BeginsLine kept)
      (left_blank : BlankLine left) (right_blank : BlankLine right) : Widened kept left (right ++ [lineFeed]) rest
  | above {kept above left right rest : List UInt8} (begins : BeginsLine kept)
      (above_blank : BlankLine above) (left_blank : BlankLine left) (right_blank : BlankLine right)
      (rest_blank : ∀ b ∈ rest, isBlankByte b = true) :
      Widened kept (above ++ lineFeed :: left) (right ++ [lineFeed]) rest
  | last {kept left right : List UInt8} (left_blank : BlankLine left)
      (right_blank : BlankLine right) : Widened kept (lineFeed :: left) right []
  | whole {left right : List UInt8} (left_blank : BlankLine left)
      (right_blank : BlankLine right) : Widened [] left right []

section

variable {before after line lines kept left right rest : List UInt8}

theorem ne_lineFeed (unbroken : lineFeed ∉ line) : ∀ b ∈ line, (b != lineFeed) = true := by
  intro b there
  refine bne_iff_ne.mpr fun same => ?_
  exact unbroken (same ▸ there)

theorem not_mem_upToFeed (bytes : List UInt8) : lineFeed ∉ bytes.takeWhile (· != lineFeed) := by
  intro there
  have passed := List.mem_takeWhile_imp there
  simp at passed

/-! ## The line on which bytes end -/

theorem not_mem_behindFeed (bytes : List UInt8) : lineFeed ∉ behindFeed bytes := by
  intro there
  exact not_mem_upToFeed bytes.reverse (List.mem_reverse.mp there)

theorem behindFeed_append (unbroken : lineFeed ∉ line) :
    behindFeed (lines ++ line) = behindFeed lines ++ line := by
  have passed : ∀ b ∈ line.reverse, (b != lineFeed) = true :=
    ne_lineFeed fun there => unbroken (List.mem_reverse.mp there)
  rw [behindFeed, List.reverse_append, List.takeWhile_append_of_pos passed, List.reverse_append,
    List.reverse_reverse, behindFeed]

theorem behindFeed_begins (begins : BeginsLine lines) : behindFeed lines = [] := by
  rcases List.eq_nil_or_concat lines with rfl | ⟨init, b, rfl⟩
  · rfl
  · obtain rfl : b = lineFeed := begins b (by simp)
    simp [behindFeed]

/-- Bytes are one line, or end with a line behind a line feed. -/
theorem behindFeed_split (bytes : List UInt8) :
    bytes = behindFeed bytes ∨ ∃ init, bytes = init ++ lineFeed :: behindFeed bytes := by
  have whole := List.takeWhile_append_dropWhile (p := (· != lineFeed)) (l := bytes.reverse)
  have split : bytes = (bytes.reverse.dropWhile (· != lineFeed)).reverse ++ behindFeed bytes := by
    rw [behindFeed, ← List.reverse_append, whole, List.reverse_reverse]
  cases rest : bytes.reverse.dropWhile (· != lineFeed) with
  | nil =>
    rw [rest] at split
    exact .inl split
  | cons b rest' =>
    have stops := List.head?_dropWhile_not (· != lineFeed) bytes.reverse
    rw [rest] at stops split
    obtain rfl : b = lineFeed := by simpa using stops
    exact .inr ⟨rest'.reverse, by simpa using split⟩

/-- In front of the line on which bytes end, a line begins. -/
theorem exists_lines (bytes : List UInt8) :
    ∃ lines, bytes = lines ++ behindFeed bytes ∧ BeginsLine lines := by
  rcases behindFeed_split bytes with one | ⟨init, split⟩
  · exact ⟨[], one, nofun⟩
  · exact ⟨init ++ [lineFeed], by simpa using split, by simp [BeginsLine]⟩

/-! ## The line with which bytes begin -/

/-- Bytes are one line, or begin with a line in front of a line feed. -/
theorem upToFeed_split (bytes : List UInt8) :
    lineFeed ∉ bytes ∧ bytes.takeWhile (· != lineFeed) = bytes ∧
        bytes.dropWhile (· != lineFeed) = [] ∨
      ∃ line below, bytes = line ++ lineFeed :: below ∧ lineFeed ∉ line ∧
        bytes.takeWhile (· != lineFeed) = line ∧
        bytes.dropWhile (· != lineFeed) = lineFeed :: below := by
  have whole := List.takeWhile_append_dropWhile (p := (· != lineFeed)) (l := bytes)
  have unbroken := not_mem_upToFeed bytes
  cases rest : bytes.dropWhile (· != lineFeed) with
  | nil =>
    rw [rest, List.append_nil] at whole
    rw [whole] at unbroken
    exact .inl ⟨unbroken, whole, rfl⟩
  | cons b below =>
    have stops := List.head?_dropWhile_not (· != lineFeed) bytes
    rw [rest] at stops whole
    obtain rfl : b = lineFeed := by simpa using stops
    exact .inr ⟨_, below, whole.symm, unbroken, rfl, rfl⟩

/-- What shares a line with a piece stands between the piece and the next line feeds. -/
theorem sharesLine_iff : SharesLine before after ↔
    ¬((∀ b ∈ behindFeed before, isBlankByte b = true) ∧
      ∀ b ∈ after.takeWhile (· != lineFeed), isBlankByte b = true) := by
  constructor
  · intro others blank
    obtain ⟨left_blank, right_blank⟩ := blank
    rcases others with ⟨lines, line, rfl, unbroken, b, there, seen⟩ | others
    · rw [behindFeed_append unbroken] at left_blank
      rw [left_blank b (List.mem_append_right _ there)] at seen
      cases seen
    · obtain ⟨line, lines, rfl, unbroken, b, there, seen⟩ := others
      rw [List.takeWhile_append_of_pos (ne_lineFeed unbroken)] at right_blank
      rw [right_blank b (List.mem_append_left _ there)] at seen
      cases seen
  · intro seen
    rw [not_and_or] at seen
    rcases seen with seen | seen
    · simp only [not_forall, Bool.not_eq_true] at seen
      obtain ⟨b, there, seen⟩ := seen
      obtain ⟨lines, split, -⟩ := exists_lines before
      exact .inl ⟨lines, _, split, not_mem_behindFeed before, b, there, seen⟩
    · simp only [not_forall, Bool.not_eq_true] at seen
      obtain ⟨b, there, seen⟩ := seen
      exact .inr ⟨_, _, List.takeWhile_append_dropWhile.symm, not_mem_upToFeed after, b, there,
        seen⟩

/-! ## The outcomes -/

/-- A blank line above goes only behind another line, and only where nothing is left behind. -/
theorem exists_above {below : List UInt8} (left_blank : BlankLine (behindFeed before))
    (right_blank : BlankLine right)
    (blank : (decide (0 < before.length - (behindFeed before).length) && below.all isBlankByte &&
      (behindFeed (before.take
        (before.length - (behindFeed before).length)).dropLast).all isBlankByte) = true) :
    ∃ kept left, before = kept ++ left ∧ Widened kept left (right ++ [lineFeed]) below ∧
      kept.length = before.length - (behindFeed before).length - 1 - (behindFeed
        (before.take (before.length - (behindFeed before).length)).dropLast).length := by
  simp only [Bool.and_eq_true, decide_eq_true_eq, List.all_eq_true] at blank
  obtain ⟨⟨positive, below_blank⟩, above_blank⟩ := blank
  rcases behindFeed_split before with one | ⟨init, split⟩
  · rw [← one] at positive
    exact absurd positive (by simp)
  · have count := congrArg List.length split
    simp only [List.length_append, List.length_cons] at count
    have above : (before.take (before.length - (behindFeed before).length)).dropLast = init := by
      have front : before.length - (behindFeed before).length = (init ++ [lineFeed]).length := by
        simp only [List.length_append, List.length_singleton]
        omega
      have lines : (init ++ [lineFeed] ++ behindFeed before).take (init ++ [lineFeed]).length =
          init ++ [lineFeed] := List.take_left
      rw [← List.append_cons, ← split] at lines
      rw [front, lines, List.dropLast_concat]
    rw [above] at above_blank ⊢
    obtain ⟨lines, split', begins⟩ := exists_lines init
    have length := congrArg List.length split'
    rw [List.length_append] at length
    refine ⟨lines, behindFeed init ++ lineFeed :: behindFeed before, ?_, ?_, by omega⟩
    · rw [← List.append_assoc, ← split', ← split]
    · exact .above begins ⟨above_blank, not_mem_behindFeed init⟩ left_blank right_blank below_blank

section

variable {piece : List UInt8}

theorem take_before : (before ++ piece ++ after).take before.length = before := by
  rw [List.append_assoc, List.take_left]

theorem drop_piece : (before ++ piece ++ after).drop (before.length + piece.length) = after := by
  rw [← List.length_append, List.drop_left]

/-- A piece that shares a line stays as it is. -/
theorem wholeLines_of_shares (others : SharesLine before after) :
    wholeLines (before ++ piece ++ after) ⟨before.length, before.length + piece.length⟩ =
      ⟨before.length, before.length + piece.length⟩ := by
  have shared : (!(behindFeed before).all isBlankByte ||
      !(after.takeWhile (· != lineFeed)).all isBlankByte) = true := by
    rw [sharesLine_iff, ← List.all_eq_true, ← List.all_eq_true, not_and_or] at others
    simpa using others
  simp only [wholeLines, take_before, drop_piece, shared, if_true]

/-- A piece that shares no line is widened in one of the four ways. -/
theorem exists_widened (alone : ¬SharesLine before after) : ∃ kept left right rest,
    before = kept ++ left ∧ after = right ++ rest ∧ Widened kept left right rest ∧
      wholeLines (before ++ piece ++ after) ⟨before.length, before.length + piece.length⟩ =
        ⟨kept.length, before.length + piece.length + right.length⟩ := by
  rw [sharesLine_iff, not_not] at alone
  obtain ⟨left, right⟩ := alone
  have left_blank : BlankLine (behindFeed before) := ⟨left, not_mem_behindFeed before⟩
  have blank : (!(behindFeed before).all isBlankByte ||
      !(after.takeWhile (· != lineFeed)).all isBlankByte) = false := by
    rw [List.all_eq_true.mpr left, List.all_eq_true.mpr right]
    rfl
  simp only [wholeLines, take_before, drop_piece, blank, Bool.false_eq_true, if_false]
  rcases upToFeed_split after with ⟨unended, all, none⟩ | goesOn
  · rw [all] at right
    rw [all, none]
    rcases behindFeed_split before with one | ⟨init, split⟩
    · refine ⟨[], before, after, [], rfl, by simp, ?_, ?_⟩
      · exact .whole (one ▸ left_blank) ⟨right, unended⟩
      · rw [← one]
        simp
    · refine ⟨init, lineFeed :: behindFeed before, after, [], split, by simp,
        .last left_blank ⟨right, unended⟩, ?_⟩
      have count := congrArg List.length split
      simp only [List.length_append, List.length_cons] at count
      have front : before.length - (behindFeed before).length - 1 = init.length := by omega
      simp only [front]
  · obtain ⟨line, below, split, unbroken, first, rest⟩ := goesOn
    rw [first] at right
    rw [first, rest]
    have right_blank : BlankLine line := ⟨right, unbroken⟩
    have after_eq : after = line ++ [lineFeed] ++ below := by simpa using split
    dsimp only
    split
    · next blank =>
      obtain ⟨kept, left, before_eq, widened, front⟩ := exists_above left_blank right_blank blank
      refine ⟨kept, left, _, below, before_eq, after_eq, widened, ?_⟩
      rw [front, List.length_append, List.length_singleton, Nat.add_assoc]
    · obtain ⟨lines, before_eq, begins⟩ := exists_lines before
      refine ⟨lines, behindFeed before, _, below, before_eq, after_eq,
        .line begins left_blank right_blank, ?_⟩
      have count := congrArg List.length before_eq
      rw [List.length_append] at count
      have front : before.length - (behindFeed before).length = lines.length := by omega
      rw [front, List.length_append, List.length_singleton, Nat.add_assoc]

end

namespace Widened

theorem left_blank (w : Widened kept left right rest) : ∀ b ∈ left, isBlankByte b = true := by
  cases w with
  | line _ left_blank => exact left_blank.blank
  | above _ above_blank left_blank =>
    exact List.forall_mem_append.mpr
      ⟨above_blank.blank, List.forall_mem_cons.mpr ⟨rfl, left_blank.blank⟩⟩
  | last left_blank => exact List.forall_mem_cons.mpr ⟨rfl, left_blank.blank⟩
  | whole left_blank => exact left_blank.blank

theorem right_blank (w : Widened kept left right rest) : ∀ b ∈ right, isBlankByte b = true := by
  have feed : ∀ b ∈ [lineFeed], isBlankByte b = true := by simp [isBlankByte, lineFeed]
  cases w with
  | line _ _ right_blank => exact List.forall_mem_append.mpr ⟨right_blank.blank, feed⟩
  | above _ _ _ right_blank => exact List.forall_mem_append.mpr ⟨right_blank.blank, feed⟩
  | last _ right_blank => exact right_blank.blank
  | whole _ right_blank => exact right_blank.blank

/-- With a line feed behind the piece, whole lines go: that of the piece, and at most one blank line
above when nothing is left behind. -/
theorem ended (w : Widened kept left right rest) (there : lineFeed ∈ right ++ rest) :
    BeginsLine kept ∧ (∃ line, right = line ++ [lineFeed] ∧ lineFeed ∉ line) ∧
      (lineFeed ∉ left ∨ (∃ above line, left = above ++ lineFeed :: line ∧
        lineFeed ∉ above ∧ lineFeed ∉ line) ∧ ∀ b ∈ rest, isBlankByte b = true) := by
  cases w with
  | line begins left_blank right_blank =>
    exact ⟨begins, ⟨_, rfl, right_blank.unbroken⟩, .inl left_blank.unbroken⟩
  | above begins above_blank left_blank right_blank rest_blank =>
    exact ⟨begins, ⟨_, rfl, right_blank.unbroken⟩,
      .inr ⟨⟨_, _, rfl, above_blank.unbroken, left_blank.unbroken⟩, rest_blank⟩⟩
  | last _ right_blank => exact absurd (by simpa using there) right_blank.unbroken
  | whole _ right_blank => exact absurd (by simpa using there) right_blank.unbroken

/-- Without a line feed behind the piece, all goes that is behind the line feed in front, and that
line feed as well. -/
theorem unended (w : Widened kept left right rest) (none : lineFeed ∉ right ++ rest) :
    rest = [] ∧ ((∃ line, left = lineFeed :: line ∧ lineFeed ∉ line) ∨
      kept = [] ∧ lineFeed ∉ left) := by
  cases w with
  | line => simp at none
  | above => simp at none
  | last left_blank => exact ⟨rfl, .inl ⟨_, rfl, left_blank.unbroken⟩⟩
  | whole left_blank => exact ⟨rfl, .inr ⟨rfl, left_blank.unbroken⟩⟩

end Widened

end

/-- A span is widened over white space beside it. It stays as it is when something else is on its
first or last line. Otherwise whole lines go, up to the first line feed behind the span, and one
blank line above goes with them only if nothing is left below; or there is no line feed behind, and
the last line goes with the line feed in front. -/
structure TakesBlanks (bytes : List UInt8) (span widened : Span) : Prop where
  around : widened.start ≤ span.start ∧ span.stop ≤ widened.stop
  inside : widened.stop ≤ bytes.length
  front_blank : ∀ b ∈ (bytes.take span.start).drop widened.start, isBlankByte b = true
  behind_blank : ∀ b ∈ (bytes.take widened.stop).drop span.stop, isBlankByte b = true
  shared : SharesLine (bytes.take span.start) (bytes.drop span.stop) → widened = span
  ended : ¬SharesLine (bytes.take span.start) (bytes.drop span.stop) →
    lineFeed ∈ bytes.drop span.stop →
      BeginsLine (bytes.take widened.start) ∧
      (∃ line, (bytes.take widened.stop).drop span.stop = line ++ [lineFeed] ∧ lineFeed ∉ line) ∧
      (lineFeed ∉ (bytes.take span.start).drop widened.start ∨
        (∃ above line, (bytes.take span.start).drop widened.start = above ++ lineFeed :: line ∧
          lineFeed ∉ above ∧ lineFeed ∉ line) ∧
        ∀ b ∈ bytes.drop widened.stop, isBlankByte b = true)
  unended : ¬SharesLine (bytes.take span.start) (bytes.drop span.stop) →
    lineFeed ∉ bytes.drop span.stop →
      widened.stop = bytes.length ∧
      ((∃ line, (bytes.take span.start).drop widened.start = lineFeed :: line ∧ lineFeed ∉ line) ∨
        widened.start = 0 ∧ lineFeed ∉ bytes.take span.start)

namespace TakesBlanks

variable {kept left piece right rest : List UInt8}

theorem of_shared {bytes : List UInt8} {span : Span} (inside : span.stop ≤ bytes.length)
    (others : SharesLine (bytes.take span.start) (bytes.drop span.stop)) :
    TakesBlanks bytes span span where
  around := ⟨Nat.le_refl _, Nat.le_refl _⟩
  inside := inside
  front_blank := by simp
  behind_blank := by simp
  shared _ := rfl
  ended alone := absurd others alone
  unended alone := absurd others alone

theorem of_widened (w : Widened kept left right rest)
    (alone : ¬SharesLine (kept ++ left) (right ++ rest)) :
    TakesBlanks (kept ++ left ++ piece ++ (right ++ rest))
      ⟨(kept ++ left).length, (kept ++ left).length + piece.length⟩
      ⟨kept.length, (kept ++ left).length + piece.length + right.length⟩ := by
  have stop : (kept ++ left).length + piece.length + right.length =
      (kept ++ left ++ piece ++ right).length := by
    simp only [List.length_append]
  have front : (kept ++ left ++ piece ++ (right ++ rest)).take kept.length = kept := by
    rw [List.append_assoc, List.append_assoc, List.take_left]
  have upTo : (kept ++ left ++ piece ++ (right ++ rest)).take
      (kept ++ left ++ piece ++ right).length = kept ++ left ++ piece ++ right := by
    rw [← List.append_assoc, List.take_left]
  have below : (kept ++ left ++ piece ++ (right ++ rest)).drop
      (kept ++ left ++ piece ++ right).length = rest := by
    rw [← List.append_assoc, List.drop_left]
  rw [stop]
  exact {
    around := by
      simp only [List.length_append]
      omega
    inside := by
      simp only [List.length_append]
      omega
    front_blank := by
      rw [take_before, List.drop_left]
      exact w.left_blank
    behind_blank := by
      rw [upTo, drop_piece]
      exact w.right_blank
    shared := by
      rw [take_before, drop_piece]
      intro others
      exact absurd others alone
    ended := by
      rw [take_before, drop_piece, upTo, drop_piece, below, front, List.drop_left]
      intro _ there
      exact w.ended there
    unended := by
      rw [take_before, drop_piece, List.drop_left]
      intro _ none
      obtain ⟨rest_nil, feed | ⟨kept_nil, one⟩⟩ := w.unended none
      · exact ⟨by simp [rest_nil], .inl feed⟩
      · exact ⟨by simp [rest_nil], .inr ⟨by simp [kept_nil], by simpa [kept_nil] using one⟩⟩ }

end TakesBlanks

/-- Bytes are those in front of a span, those in it and those behind. -/
theorem exists_piece {bytes : List UInt8} {span : Span} (ordered : span.start ≤ span.stop)
    (inside : span.stop ≤ bytes.length) : ∃ before piece after,
      bytes = before ++ piece ++ after ∧
        span = ⟨before.length, before.length + piece.length⟩ := by
  refine ⟨bytes.take span.start, (bytes.drop span.start).take (span.stop - span.start),
    bytes.drop span.stop, ?_, ?_⟩
  · have behind : bytes.drop span.stop =
        (bytes.drop span.start).drop (span.stop - span.start) := by
      rw [List.drop_drop, Nat.add_sub_cancel' ordered]
    rw [behind, List.append_assoc, List.take_append_drop, List.take_append_drop]
  · have start : (bytes.take span.start).length = span.start :=
      List.length_take_of_le (Nat.le_trans ordered inside)
    have size : ((bytes.drop span.start).take (span.stop - span.start)).length =
        span.stop - span.start := by
      refine List.length_take_of_le ?_
      rw [List.length_drop]
      omega
    rw [start, size, Nat.add_sub_cancel' ordered]

/-- Widening a span takes white space only, and whole lines where nothing else is on them. -/
theorem wholeLines_takes_blanks {bytes : List UInt8} {span : Span}
    (ordered : span.start ≤ span.stop) (inside : span.stop ≤ bytes.length) :
    TakesBlanks bytes span (wholeLines bytes span) := by
  obtain ⟨before, piece, after, rfl, rfl⟩ := exists_piece ordered inside
  by_cases others : SharesLine before after
  · rw [wholeLines_of_shares others]
    exact .of_shared inside (by rwa [take_before, drop_piece])
  · obtain ⟨kept, left, right, rest, rfl, rfl, widened, reach⟩ := exists_widened others
    rw [reach]
    exact .of_widened widened others

theorem wholeLines_last_import :
    TakesBlanks (bytesOf "import a\n\n  import b\n\n".toList) ⟨12, 20⟩
        (wholeLines (bytesOf "import a\n\n  import b\n\n".toList) ⟨12, 20⟩) ∧
      wholeLines (bytesOf "import a\n\n  import b\n\n".toList) ⟨12, 20⟩ = ⟨9, 21⟩ :=
  ⟨wholeLines_takes_blanks (by decide) (by decide), by decide⟩

end ModuleRepair.SourceFile
