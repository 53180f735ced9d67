import ModuleRepair.Proofs.Project.Tail
import ModuleRepair.Proofs.Text.Front

/-!
# Tails compared by segments

The tail of a specifier is found by a walk over its leading steps, which comes to an end on every
text (`walk_iff`). Two tails match if the segments of one of them end those of the other one
(`matchesPath_iff`): what ends with a text behind a slash ends with all of its segments, and with
no part of another one (`split_suffix_split_iff`).
-/
namespace ModuleRepair

open ModuleRepair.Text

namespace Path

/-- What stands before and behind the first slash. -/
theorem eq_of_first_slash {a b rest rest' : List Char} (ha : '/' ∉ a) (hb : '/' ∉ b)
    (same : a ++ '/' :: rest = b ++ '/' :: rest') : a = b ∧ rest = rest' := by
  have pieces := congrArg (split '/') same
  rw [split_append_sep ha, split_append_sep hb] at pieces
  obtain rfl : a = b := (List.cons.inj pieces).1
  exact ⟨rfl, (List.cons.inj (List.append_cancel_left same)).2⟩

/-- The segments of one text end those of another one just when the texts are the same or the other
one ends with the first behind a slash. -/
theorem split_suffix_split_iff {a b : List Char} :
    split '/' a <:+ split '/' b ↔ a = b ∨ '/' :: a <:+ b := by
  constructor
  · rintro ⟨front, whole⟩
    have text := congrArg (Text.join ['/']) whole
    rw [join_split] at text
    cases front with
    | nil => exact .inl (by rwa [List.nil_append, join_split] at text)
    | cons s front =>
      rw [join_append ['/'] (List.cons_ne_nil s front) (split_ne_nil '/' a), join_split] at text
      exact .inr ⟨Text.join ['/'] (s :: front), by simpa using text⟩
  · rintro (rfl | ⟨front, rfl⟩)
    · exact List.suffix_refl _
    · rw [split_append_slash]
      exact List.suffix_append _ _

end Path

namespace Specifier

variable {s t first rest : List Char}

/-! ## The walk over leading steps -/

/-- A text that starts with a step to the same or the parent directory. -/
def IsRelative (s : List Char) : Prop :=
  "./".toList <+: s ∨ "../".toList <+: s

/-- The walk over leading steps: as long as a text starts with one, it goes on behind the first
slash. -/
inductive Walk : List Char → List Char → Prop
  | stop {s : List Char} (done : ¬IsRelative s) : Walk s s
  | turn {s first rest last : List Char} (relative : IsRelative s) (cut : s = first ++ '/' :: rest)
      (noSlash : '/' ∉ first) (onward : Walk rest last) : Walk s last

theorem isRelative_iff :
    IsRelative s ↔ (∃ rest, s = '.' :: '/' :: rest) ∨ ∃ rest, s = '.' :: '.' :: '/' :: rest := by
  refine or_congr ⟨?_, ?_⟩ ⟨?_, ?_⟩ <;> rintro ⟨rest, rfl⟩ <;> exact ⟨rest, rfl⟩

theorem IsRelative.of_prefix (h : IsRelative s) (within : s <+: t) : IsRelative t :=
  h.imp (·.trans within) (·.trans within)

theorem not_isRelative_dropRelative (s : List Char) : ¬IsRelative (dropRelative s) := by
  induction s using dropRelative.induct with
  | case1 rest ih => rwa [dropRelative]
  | case2 rest ih => rwa [dropRelative]
  | case3 s here above =>
    rw [dropRelative.eq_3 s here above, isRelative_iff]
    rintro (⟨rest, same⟩ | ⟨rest, same⟩)
    · exact here rest same
    · exact above rest same

theorem dropRelative_of_not_isRelative (h : ¬IsRelative s) : dropRelative s = s := by
  rw [isRelative_iff, not_or] at h
  exact dropRelative.eq_3 s (fun rest same => h.1 ⟨rest, same⟩) fun rest same => h.2 ⟨rest, same⟩

/-- One turn of the walk: what stands before the first slash is a step. -/
theorem dropRelative_turn (relative : IsRelative (first ++ '/' :: rest)) (noSlash : '/' ∉ first) :
    dropRelative (first ++ '/' :: rest) = dropRelative rest := by
  rcases isRelative_iff.mp relative with ⟨rest', text⟩ | ⟨rest', text⟩
  · obtain ⟨rfl, rfl⟩ := Path.eq_of_first_slash (b := ['.']) noSlash (by decide) text
    exact dropRelative.eq_1 rest
  · obtain ⟨rfl, rfl⟩ := Path.eq_of_first_slash (b := ['.', '.']) noSlash (by decide) text
    exact dropRelative.eq_2 rest

theorem walk_dropRelative (s : List Char) : Walk s (dropRelative s) := by
  induction s using dropRelative.induct with
  | case1 rest ih =>
    rw [dropRelative]
    have cut : '.' :: '/' :: rest = ['.'] ++ '/' :: rest := rfl
    exact .turn (isRelative_iff.mpr (.inl ⟨rest, rfl⟩)) cut (by decide) ih
  | case2 rest ih =>
    rw [dropRelative]
    have cut : '.' :: '.' :: '/' :: rest = ['.', '.'] ++ '/' :: rest := rfl
    exact .turn (isRelative_iff.mpr (.inr ⟨rest, rfl⟩)) cut (by decide) ih
  | case3 s here above =>
    have done := not_isRelative_dropRelative s
    rw [dropRelative.eq_3 s here above] at done ⊢
    exact .stop done

/-- The walk comes to an end on every text, and to one end only. -/
theorem walk_iff : Walk s t ↔ t = dropRelative s := by
  constructor
  · intro walk
    induction walk with
    | stop done => exact (dropRelative_of_not_isRelative done).symm
    | turn relative cut noSlash _ ih =>
      subst cut
      rw [ih, dropRelative_turn relative noSlash]
  · rintro rfl
    exact walk_dropRelative s

/-! ## Slashes at the end -/

theorem getLast?_dropEnd (s : List Char) : (dropEnd (· == '/') s).getLast? ≠ some '/' := by
  intro last
  rw [dropEnd, List.getLast?_reverse] at last
  simpa using head?_dropWhile (· == '/') s.reverse '/' last

theorem dropEnd_slashes (ends : t.getLast? ≠ some '/') (n : Nat) :
    dropEnd (· == '/') (t ++ List.replicate n '/') = t := by
  have stops : ∀ c ∈ t.reverse.head?, (c == '/') = false := by
    intro c hc
    rw [List.head?_reverse] at hc
    exact beq_eq_false_iff_ne.mpr fun slash => ends (slash ▸ hc)
  rw [dropEnd, List.reverse_append, List.reverse_replicate, dropWhile_exact ?_ stops,
    List.reverse_reverse]
  intro c hc
  exact beq_iff_eq.mpr (List.eq_of_mem_replicate hc)

end Specifier

namespace AliasRoot

open Specifier

variable {r : AliasRoot} {a b specifier : String} {t : List Char}

/-- What becomes of a specifier: the mark goes if it stands in front, the walk over leading steps
comes to an end, and the slashes at the end of what is left go. -/
def HasTail (r : AliasRoot) (specifier : String) (t : List Char) : Prop :=
  ∃ text n, (specifier.toList = r.mark.toList ++ text ∨
      ¬r.mark.toList <+: specifier.toList ∧ specifier.toList = text) ∧
    Walk text (t ++ List.replicate n '/') ∧ t.getLast? ≠ some '/'

theorem behindMark_iff {mark s text : List Char} :
    (s = mark ++ text ∨ ¬mark <+: s ∧ s = text) ↔ text = (afterStart? mark s).getD s := by
  cases found : afterStart? mark s with
  | some behind =>
    obtain rfl := afterStart?_eq_some_iff.mp found
    simp [eq_comm]
  | none =>
    have missing : ¬mark <+: s := by
      rintro ⟨behind, rfl⟩
      rw [afterStart?_append] at found
      cases found
    have other : s ≠ mark ++ text := fun same => missing ⟨text, same.symm⟩
    simp [missing, other, eq_comm]

/-- The walk over leading steps ends with the tail and slashes behind it. -/
theorem exists_slashes (r : AliasRoot) (specifier : String) : ∃ n,
    dropRelative ((afterStart? r.mark.toList specifier.toList).getD specifier.toList) =
      r.tail specifier ++ List.replicate n '/' :=
  dropEnd_split _

theorem not_isRelative_tail (r : AliasRoot) (specifier : String) :
    ¬IsRelative (r.tail specifier) := by
  intro relative
  obtain ⟨n, walked⟩ := exists_slashes r specifier
  exact not_isRelative_dropRelative _ (relative.of_prefix ⟨_, walked.symm⟩)

theorem getLast?_tail (r : AliasRoot) (specifier : String) :
    (r.tail specifier).getLast? ≠ some '/' :=
  getLast?_dropEnd _

/-- Every specifier has one tail. -/
theorem hasTail_iff : r.HasTail specifier t ↔ t = r.tail specifier := by
  simp only [HasTail, behindMark_iff, walk_iff]
  constructor
  · rintro ⟨_, n, rfl, walked, ends⟩
    rw [tail, ← walked, dropEnd_slashes ends]
  · rintro rfl
    obtain ⟨n, walked⟩ := exists_slashes r specifier
    exact ⟨_, n, rfl, walked.symm, getLast?_tail r specifier⟩

/-! ## Matching -/

theorem matchesPath_iff : r.matchesPath a b = true ↔ r.tail a ≠ [] ∧ r.tail b ≠ [] ∧
    (split '/' (r.tail a) <:+ split '/' (r.tail b) ∨
      split '/' (r.tail b) <:+ split '/' (r.tail a)) := by
  simp only [matchesPath, Bool.and_eq_true, Bool.or_eq_true, Bool.not_eq_true',
    List.isEmpty_eq_false_iff, beq_iff_eq, List.isSuffixOf_iff_suffix, Path.split_suffix_split_iff,
    and_assoc]
  refine and_congr_right fun _ => and_congr_right fun _ => ?_
  constructor
  · rintro ((same | inA) | inB)
    · exact .inl (.inl same)
    · exact .inr (.inr inA)
    · exact .inl (.inr inB)
  · rintro ((same | inB) | (same | inA))
    · exact .inl (.inl same)
    · exact .inr inB
    · exact .inl (.inl same.symm)
    · exact .inl (.inr inA)

theorem matchesPath_comm (r : AliasRoot) (a b : String) :
    r.matchesPath a b = r.matchesPath b a := by
  rw [Bool.eq_iff_iff, matchesPath_iff, matchesPath_iff]
  constructor
  · rintro ⟨ha, hb, same⟩
    exact ⟨hb, ha, same.symm⟩
  · rintro ⟨hb, ha, same⟩
    exact ⟨ha, hb, same.symm⟩

theorem matchesPath_self_iff : r.matchesPath a a = true ↔ r.tail a ≠ [] := by
  rw [matchesPath_iff]
  constructor
  · intro h
    exact h.1
  · intro filled
    exact ⟨filled, filled, .inl (List.suffix_refl _)⟩

/-- For all specifiers and every mark: a specifier has one tail, which starts with no step to the
same or the parent directory and does not end with a slash. Two specifiers match, whichever comes
first, just when neither tail is empty and the segments of one tail end those of the other; so a
specifier matches itself unless its tail is empty. -/
theorem tail_matches_by_segments (r : AliasRoot) (a b : String) :
    (∀ t, r.HasTail a t ↔ t = r.tail a) ∧
      ¬"./".toList <+: r.tail a ∧ ¬"../".toList <+: r.tail a ∧ ¬"/".toList <:+ r.tail a ∧
      r.matchesPath a b = r.matchesPath b a ∧
      (r.matchesPath a b = true ↔ r.tail a ≠ [] ∧ r.tail b ≠ [] ∧
        (split '/' (r.tail a) <:+ split '/' (r.tail b) ∨
          split '/' (r.tail b) <:+ split '/' (r.tail a))) ∧
      (r.matchesPath a a = true ↔ r.tail a ≠ []) := by
  have steps := not_or.mp (not_isRelative_tail r a)
  refine ⟨fun t => hasTail_iff, steps.1, steps.2, ?_, matchesPath_comm r a b, matchesPath_iff,
    matchesPath_self_iff⟩
  rintro ⟨front, text⟩
  exact getLast?_tail r a (by simp [← text])

/-- A longer segment is another one, though it starts alike. -/
example :
    let root : AliasRoot := ⟨standardMark, "/proj/src"⟩
    root.matchesPath "../components/header/" "./header" = true ∧
      root.matchesPath "@/components/header-nav" "./header" = false := by
  decide

end AliasRoot

end ModuleRepair
