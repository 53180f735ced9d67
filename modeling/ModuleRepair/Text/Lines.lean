/-!
# Lines and pieces

Splitting a text at one character and joining it again are inverse to each other (`join_split`,
`split_join`). The lines of a report end at any of the line boundaries of Unicode; the lines of a
source file end at a line feed alone, so that a file can be put together again byte for byte.
-/
namespace ModuleRepair.Text

/-- The pieces between the occurrences of a separator; always at least one. -/
def split (sep : Char) (s : List Char) : List (List Char) :=
  go s [] []
where
  /-- Collects the current piece and the finished ones, both reversed. -/
  go : List Char → List Char → List (List Char) → List (List Char)
    | [], piece, done => (piece.reverse :: done).reverse
    | c :: rest, piece, done =>
      if c = sep then go rest [] (piece.reverse :: done) else go rest (c :: piece) done

/-- The pieces with a separator between each two. -/
def join (sep : List Char) (pieces : List (List Char)) : List Char :=
  sep.intercalate pieces

theorem split.go_ne_nil (sep : Char) (s piece : List Char) (done : List (List Char)) :
    split.go sep s piece done ≠ [] := by
  induction s generalizing piece done with
  | nil => simp [go]
  | cons c rest ih => unfold go; split <;> exact ih _ _

theorem split_ne_nil (sep : Char) (s : List Char) : split sep s ≠ [] :=
  split.go_ne_nil sep s [] []

theorem join_nil (sep : List Char) : join sep [] = [] := rfl

theorem join_singleton (sep a : List Char) : join sep [a] = a := by
  simp [join, List.intercalate]

theorem join_cons_cons (sep a b : List Char) (rest : List (List Char)) :
    join sep (a :: b :: rest) = a ++ sep ++ join sep (b :: rest) := by
  simp [join, List.intercalate, List.intersperse]

/-- Two last pieces are one piece with the separator inside. -/
theorem join_append_pair (sep a b : List Char) (front : List (List Char)) :
    join sep (front ++ [a, b]) = join sep (front ++ [a ++ sep ++ b]) := by
  induction front with
  | nil => simp [join_cons_cons, join_singleton]
  | cons x front ih =>
    cases front with
    | nil => simp [join_cons_cons, join_singleton]
    | cons y front => simpa [join_cons_cons] using ih

/-- A last piece stands behind a separator. -/
theorem join_append_singleton (sep b : List Char) {front : List (List Char)} (h : front ≠ []) :
    join sep (front ++ [b]) = join sep front ++ sep ++ b := by
  induction front with
  | nil => exact absurd rfl h
  | cons x front ih =>
    cases front with
    | nil => simp [join_cons_cons, join_singleton]
    | cons y front => simpa [join_cons_cons] using ih (List.cons_ne_nil y front)

theorem join_split_go (sep : Char) (s piece : List Char) (done : List (List Char)) :
    join [sep] (split.go sep s piece done) = join [sep] (done.reverse ++ [piece.reverse ++ s]) := by
  induction s generalizing piece done with
  | nil => simp [split.go]
  | cons c rest ih =>
    unfold split.go
    split
    · next h => subst h; rw [ih]; simp [join_append_pair]
    · rw [ih]; simp

/-- Splitting loses nothing. -/
theorem join_split (sep : Char) (s : List Char) : join [sep] (split sep s) = s := by
  simp [split, join_split_go, join_singleton]

theorem split.go_done (sep : Char) (s piece : List Char) (done : List (List Char)) :
    split.go sep s piece done = done.reverse ++ split.go sep s piece [] := by
  induction s generalizing piece done with
  | nil => simp [go]
  | cons c rest ih =>
    simp only [go]
    split
    · rw [ih [] (piece.reverse :: done), ih [] [piece.reverse]]
      simp
    · exact ih (c :: piece) done

theorem split.go_append {sep : Char} {a : List Char} (h : sep ∉ a) (rest piece : List Char) :
    split.go sep (a ++ rest) piece [] = split.go sep rest (a.reverse ++ piece) [] := by
  induction a generalizing piece with
  | nil => simp
  | cons c a ih =>
    have other : c ≠ sep := fun same => h (by simp [same])
    simp [go, other, ih fun found => h (List.mem_cons_of_mem c found)]

theorem split_of_not_mem {sep : Char} {s : List Char} (h : sep ∉ s) : split sep s = [s] := by
  simpa [split, split.go] using split.go_append h [] []

theorem split_append_sep {sep : Char} {a : List Char} (h : sep ∉ a) (rest : List Char) :
    split sep (a ++ sep :: rest) = a :: split sep rest := by
  rw [split, split.go_append h]
  simpa [split, split.go] using split.go_done sep rest [] [a]

theorem split_cons_sep (sep : Char) (rest : List Char) :
    split sep (sep :: rest) = [] :: split sep rest :=
  split_append_sep List.not_mem_nil rest

/-- Pieces without the separator come back. -/
theorem split_join {sep : Char} {pieces : List (List Char)} (some : pieces ≠ [])
    (h : ∀ piece ∈ pieces, sep ∉ piece) : split sep (join [sep] pieces) = pieces := by
  induction pieces with
  | nil => exact absurd rfl some
  | cons a rest ih =>
    have first : sep ∉ a := h a List.mem_cons_self
    cases rest with
    | nil => rw [join_singleton, split_of_not_mem first]
    | cons b rest =>
      have joined : join [sep] (a :: b :: rest) = a ++ sep :: join [sep] (b :: rest) := by
        simp [join_cons_cons]
      rw [joined, split_append_sep first,
        ih (List.cons_ne_nil b rest) fun piece hp => h piece (List.mem_cons_of_mem a hp)]

theorem split.go_not_mem {sep : Char} {s piece : List Char} (h : sep ∉ piece) :
    ∀ p ∈ split.go sep s piece [], sep ∉ p := by
  induction s generalizing piece with
  | nil => simpa [go] using h
  | cons c rest ih =>
    simp only [go]
    split
    · intro p hp
      rw [split.go_done] at hp
      rcases List.mem_append.mp hp with hp | hp
      · simp_all
      · exact ih List.not_mem_nil p hp
    · next other => exact ih (by simp [h, Ne.symm other])

/-- No piece holds the separator. -/
theorem not_mem_of_mem_split {sep : Char} {s piece : List Char} (h : piece ∈ split sep s) :
    sep ∉ piece :=
  split.go_not_mem List.not_mem_nil piece h

/-- A string in pieces. -/
def splitString (sep : Char) (s : String) : List String :=
  (split sep s.toList).map String.ofList

/-- The characters that end a line of a report. -/
def isLineBreak (c : Char) : Bool :=
  let n := c.toNat
  (0x0A ≤ n && n ≤ 0x0D) || (0x1C ≤ n && n ≤ 0x1E) || n == 0x85 || n == 0x2028 || n == 0x2029

/-- The lines of a report, without their ends. A carriage return and the line feed behind it end
one line together, and nothing follows the last end. -/
def reportLines (s : List Char) : List (List Char) :=
  go s [] []
where
  /-- Collects the current line and the finished ones, both reversed. -/
  go : List Char → List Char → List (List Char) → List (List Char)
    | [], line, done => (if line.isEmpty then done else line.reverse :: done).reverse
    | '\r' :: '\n' :: rest, line, done => go rest [] (line.reverse :: done)
    | c :: rest, line, done =>
      if isLineBreak c then go rest [] (line.reverse :: done) else go rest (c :: line) done

/-- Every line end written as a line feed: a carriage return, with a line feed behind it or not,
becomes one. -/
def unifyLineEnds (s : List Char) : List Char :=
  go s []
where
  /-- Collects the result, reversed. -/
  go : List Char → List Char → List Char
    | [], done => done.reverse
    | '\r' :: '\n' :: rest, done => go rest ('\n' :: done)
    | c :: rest, done => go rest ((if c = '\r' then '\n' else c) :: done)

/-- Whether a text holds another one. -/
def contains (needle : List Char) : List Char → Bool
  | [] => needle.isEmpty
  | c :: rest => needle.isPrefixOf (c :: rest) || contains needle rest

/-- What follows a text at the start of another one. -/
def afterStart? (start s : List Char) : Option (List Char) :=
  if start.isPrefixOf s then some (s.drop start.length) else none

/-- The first position, counted from the front, at which a search succeeds, with its result. -/
def findFirst? {α : Type} (search : List Char → Option α) : List Char → Option (Nat × α)
  | [] => (search []).map (0, ·)
  | c :: rest =>
    match search (c :: rest) with
    | some found => some (0, found)
    | none => (findFirst? search rest).map fun found => (found.1 + 1, found.2)

end ModuleRepair.Text
