import ModuleRepair.Proofs.Script.RoundTrip
import ModuleRepair.Proofs.SourceFile.WholeLines
import ModuleRepair.Proofs.Text.Bytes

/-!
# Lines of imports

The text of one import among lines of imports: what stands around it, where it is found, and what is
left when its line is taken away.
-/
namespace ModuleRepair.Script

open ModuleRepair.Text

/-- Lines, each with its line feed behind it. -/
def linesBefore (ds : List Import) : List Char :=
  ds.flatMap (statementText · ++ ['\n'])

/-- Lines, each with its line feed in front of it. -/
def linesBehind (ds : List Import) : List Char :=
  ds.flatMap ('\n' :: statementText ·)

theorem linesText_cons_behind (d : Import) (back : List Import) :
    linesText (d :: back) = statementText d ++ linesBehind back := by
  induction back generalizing d with
  | nil => simp [linesText, linesBehind, join_singleton]
  | cons next back ih =>
    have rest := ih next
    simp only [linesText, List.map_cons] at rest ⊢
    rw [join_cons_cons, rest]
    simp [linesBehind]

theorem linesBefore_append {ds : List Import} (front : List Import) (hne : ds ≠ []) :
    linesBefore front ++ linesText ds = linesText (front ++ ds) := by
  induction front with
  | nil => rfl
  | cons d front ih =>
    obtain ⟨next, rest, hd⟩ : ∃ next rest, front ++ ds = next :: rest :=
      List.exists_cons_of_ne_nil (by simp [hne])
    simp only [linesBefore, List.flatMap_cons] at ih ⊢
    rw [List.append_assoc, ih, List.cons_append, linesText_cons_behind, hd, linesText_cons_behind]
    simp [linesBehind]

theorem linesText_append {ds : List Import} (hne : ds ≠ []) (back : List Import) :
    linesText ds ++ linesBehind back = linesText (ds ++ back) := by
  obtain ⟨d, rest, rfl⟩ := List.exists_cons_of_ne_nil hne
  rw [List.cons_append, linesText_cons_behind, linesText_cons_behind]
  simp [linesBehind]

/-- One line among the others. -/
theorem linesText_split (front : List Import) (d : Import) (back : List Import) :
    linesText (front ++ d :: back) = linesBefore front ++ statementText d ++ linesBehind back := by
  rw [← linesBefore_append front (by simp), linesText_cons_behind, List.append_assoc]

theorem placed_append {front : List Import} (h : ∀ d ∈ front, d.WellFormed) (offset : Nat)
    (back : List Import) : placed offset (front ++ back) =
      placed offset front ++ placed (offset + byteSize (linesBefore front)) back := by
  induction front generalizing offset with
  | nil => simp [placed, linesBefore]
  | cons d front ih =>
    have feed : Char.utf8Size '\n' = 1 := rfl
    simp only [List.cons_append, placed, ih (fun d hd => h d (List.mem_cons_of_mem _ hd))]
    simp [linesBefore, render_toList (h d List.mem_cons_self).spelled, feed, Nat.add_assoc]

theorem linesBefore_eq {front : List Import} (hne : front ≠ []) :
    linesBefore front = linesText front ++ ['\n'] := by
  obtain ⟨init, last, rfl⟩ := front.eq_nil_or_concat.resolve_left hne
  rw [List.concat_eq_append, ← linesBefore_append init (by simp), linesText_cons_behind]
  simp [linesBefore, linesBehind]

theorem length_placed (offset : Nat) (ds : List Import) :
    (placed offset ds).length = ds.length := by
  induction ds generalizing offset with
  | nil => rfl
  | cons d rest ih => simp [placed, ih]

/-- Where a declaration stands behind others. -/
def spanBehind (front : List Import) (d : Import) : Span :=
  ⟨byteSize (linesBefore front), byteSize (linesBefore front ++ statementText d)⟩

section

variable (front : List Import) (d : Import) (back : List Import)

theorem takeBytes_linesText :
    takeBytes (spanBehind front d).start (linesText (front ++ d :: back)) = linesBefore front := by
  rw [spanBehind, linesText_split, List.append_assoc, takeBytes_byteSize]

theorem dropBytes_linesText :
    dropBytes (spanBehind front d).stop (linesText (front ++ d :: back)) = linesBehind back := by
  rw [spanBehind, linesText_split, dropBytes_byteSize]

/-- A declaration stands alone on its line. -/
theorem wholeLines_spanBehind :
    SourceFile.wholeLines (bytesOf (linesText (front ++ d :: back))) (spanBehind front d) =
      match back with
      | [] => ⟨(spanBehind front d).start - 1, (spanBehind front d).stop⟩
      | _ :: _ => ⟨(spanBehind front d).start, (spanBehind front d).stop + 1⟩ := by
  have inFront : (bytesOf (linesText (front ++ d :: back))).take (spanBehind front d).start =
      bytesOf (linesBefore front) := by
    rw [spanBehind, linesText_split, List.append_assoc, take_bytesOf]
  have behind : (bytesOf (linesText (front ++ d :: back))).drop (spanBehind front d).stop =
      bytesOf (linesBehind back) := by
    rw [spanBehind, linesText_split, drop_bytesOf]
  have feed : bytesOf ['\n'] = [lineFeed] := rfl
  have left : SourceFile.behindFeed (bytesOf (linesBefore front)) = [] := by
    refine SourceFile.behindFeed_begins ?_
    by_cases hne : front = []
    · simp [hne, linesBefore, SourceFile.BeginsLine]
    · simp [linesBefore_eq hne, feed, SourceFile.BeginsLine]
  cases back with
  | nil =>
    have last : bytesOf (linesBehind []) = [] := rfl
    simp [SourceFile.wholeLines, inFront, behind, left, last]
  | cons next back =>
    have below : bytesOf (linesBehind (next :: back)) =
        lineFeed :: bytesOf (linesText (next :: back)) := by
      simp only [linesBehind, linesText_cons_behind]
      rfl
    have filled : (bytesOf (linesText (next :: back))).all isBlankByte = false := by
      rw [linesText_cons_behind]
      rfl
    simp [SourceFile.wholeLines, inFront, behind, left, below, filled]

end

/-- Without the line feed in front, the lines before a declaration are those of their own. -/
theorem takeBytes_linesBefore (front : List Import) (rest : List Char) :
    takeBytes (byteSize (linesBefore front) - 1) (linesBefore front ++ rest) =
      linesText front := by
  have feed : Char.utf8Size '\n' = 1 := rfl
  by_cases hne : front = []
  · subst hne
    exact takeBytes_byteSize [] _
  · have size : byteSize (linesBefore front) - 1 = byteSize (linesText front) := by
      simp [linesBefore_eq hne, feed]
    rw [size, linesBefore_eq hne, List.append_assoc, takeBytes_byteSize]

/-- The other lines are left when the line of a declaration goes. -/
theorem splice_wholeLines (front : List Import) (d : Import) (back : List Import) :
    splice (linesText (front ++ d :: back))
        (SourceFile.wholeLines (bytesOf (linesText (front ++ d :: back))) (spanBehind front d)) [] =
      linesText (front ++ back) := by
  rw [wholeLines_spanBehind]
  cases back with
  | nil =>
    have whole : linesText (front ++ [d]) = linesBefore front ++ statementText d := by
      simp [linesText_split, linesBehind]
    have last : takeBytes ((spanBehind front d).start - 1) (linesText (front ++ [d])) =
        linesText front := by
      rw [whole]
      exact takeBytes_linesBefore front (statementText d)
    simp only [splice, last, dropBytes_linesText]
    simp [linesBehind]
  | cons next back =>
    have feed : Char.utf8Size '\n' = 1 := rfl
    have below : linesBehind (next :: back) = '\n' :: linesText (next :: back) := by
      simp [linesBehind, linesText_cons_behind]
    have rest : dropBytes ((spanBehind front d).stop + 1) (linesText (front ++ d :: next :: back)) =
        linesText (next :: back) := by
      have size : (spanBehind front d).stop + 1 =
          byteSize (linesBefore front ++ statementText d ++ ['\n']) := by
        simp [spanBehind, feed, Nat.add_assoc]
      rw [size, linesText_split, below, List.append_cons _ _ (linesText _), dropBytes_byteSize]
    simp only [splice, takeBytes_linesText, rest, List.append_nil]
    exact linesBefore_append front (by simp)

/-! ## Line ends -/

theorem return_not_mem_plain {name : String} (h : isPlainName name = true) :
    '\r' ∉ name.toList := by
  intro there
  simp only [isPlainName, Bool.and_eq_true, List.all_eq_true] at h
  exact absurd (h.1.1 _ there) (by decide)

theorem return_not_mem_entriesText {list : List (List (List Char))}
    (h : ∀ entry ∈ list, ∀ word ∈ entry, '\r' ∉ word) : '\r' ∉ entriesText list := by
  have words : ∀ entry ∈ list, '\r' ∉ spaced entry := by
    intro entry he there
    obtain ⟨word, hw, there⟩ := List.mem_flatMap.mp there
    rcases List.mem_cons.mp there with blank | there
    · exact absurd blank (by decide)
    · exact h entry he word hw there
  induction list with
  | nil => simp [entriesText]
  | cons entry list ih =>
    have rest := ih (fun entry he => h entry (List.mem_cons_of_mem _ he))
      (fun entry he => words entry (List.mem_cons_of_mem _ he))
    have here := words entry List.mem_cons_self
    cases list with
    | nil => simp [entriesText, here]
    | cons next list =>
      rw [entriesText]
      · simp [here, rest]
      · simp

theorem return_not_mem_bindingWords {b : NamedImport} (h : b.WellFormed) :
    ∀ word ∈ bindingWords b, '\r' ∉ word := by
  obtain ⟨name, renamed, isType⟩ := b
  have plain := return_not_mem_plain h.name
  cases renamed with
  | none => cases isType <;> simp_all [bindingWords]
  | some a =>
    have behindAs := return_not_mem_plain (h.renamed a rfl).1
    cases isType <;> simp_all [bindingWords]

theorem return_not_mem_clauseText {d : Import} (h : d.WellFormed) : '\r' ∉ clauseText d := by
  have bindings : '\r' ∉ bindingsText d := by
    have entries : '\r' ∉ entriesText (d.named.map bindingWords) := by
      refine return_not_mem_entriesText fun entry he => ?_
      obtain ⟨b, hb, rfl⟩ := List.mem_map.mp he
      exact return_not_mem_bindingWords (h.named b hb)
    unfold bindingsText
    split
    · next name there => simp [return_not_mem_plain (h.namespaceName name there)]
    · simp [entries]
  unfold clauseText
  split
  · next name there =>
    have plain := return_not_mem_plain (h.defaultName name there)
    split <;> simp [plain, bindings]
  · exact bindings

theorem return_not_mem_statementText {d : Import} (h : d.WellFormed) :
    '\r' ∉ statementText d := by
  have specifier : '\r' ∉ quotedText d := by
    have between : '\r' ∉ d.specifier.toList := fun there => (h.specifier _ there).2.2.2 rfl
    rcases h.quote with hq | hq <;> simp [quotedText, hq, between]
  have mark : '\r' ∉ markText d := by unfold markText; split <;> simp
  have stop : '\r' ∉ stopText d := by unfold stopText; split <;> simp
  unfold statementText bodyText
  split <;> simp [specifier, mark, stop, return_not_mem_clauseText h]

theorem return_not_mem_linesText {ds : List Import} (h : ∀ d ∈ ds, d.WellFormed) :
    '\r' ∉ linesText ds := by
  cases ds with
  | nil => simp [linesText, join_nil]
  | cons d back =>
    rw [linesText_cons_behind, List.mem_append, linesBehind, List.mem_flatMap]
    rintro (here | ⟨e, he, there⟩)
    · exact return_not_mem_statementText (h d List.mem_cons_self) here
    · rcases List.mem_cons.mp there with blank | there
      · exact absurd blank (by decide)
      · exact return_not_mem_statementText (h e (List.mem_cons_of_mem _ he)) there

theorem contains_eq_false {c : Char} {needle s : List Char} (h : c ∉ s) :
    contains (c :: needle) s = false := by
  induction s with
  | nil => rfl
  | cons x s ih =>
    simp only [List.mem_cons, not_or] at h
    simp [contains, List.isPrefixOf, h.1, ih h.2]

end ModuleRepair.Script
