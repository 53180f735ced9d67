import Mathlib.Data.List.TakeWhile
import ModuleRepair.Preprocess.Text
import ModuleRepair.Proofs.Text.Front

/-!
# What calls for the directive

The scans that decide on the directive find just what they are meant to find: calls of hooks,
handlers, packages between quotes, and lines that hold the directive and nothing else
(`needsDirective_iff`).
-/
namespace ModuleRepair.Preprocess

open ModuleRepair.Text

/-- A line that holds the directive in quotes of one kind, perhaps with a semicolon, and nothing
else. -/
def IsDirectiveLine (line : Line) : Prop :=
  ∃ front q back mark rest, line = front ++ q :: "use client".toList ++ q :: back ++ mark ++ rest ∧
    isQuote q = true ∧ (mark = [] ∨ mark = [';']) ∧ ∀ c ∈ front ++ back ++ rest, isBlank c = true

/-- A word of its own with a mark behind it, and with nothing but white space between them. -/
def Uses (word : List Char) (mark : Char) (s : List Char) : Prop :=
  ∃ front blank back, s = front ++ word ++ blank ++ mark :: back ∧
    (∀ c ∈ front.getLast?, isWord c = false) ∧ ∀ c ∈ blank, isBlank c = true

/-- A package, or a path in it, between quotes. -/
def Mentions (name s : List Char) : Prop :=
  ∃ front q path q' back, s = front ++ q :: name ++ path ++ q' :: back ∧ isQuote q = true ∧
    isQuote q' = true ∧ (path = [] ∨ ∃ below, path = '/' :: below ∧ ∀ c ∈ below, isQuote c = false)

/-- What exists only in a browser. -/
inductive Triggers (modules : List String) (s : List Char) : Prop
  | hook {word : String} : word ∈ ["useState", "useEffect"] → Uses word.toList '(' s →
      Triggers modules s
  | handler : Uses "onClick".toList '=' s → Triggers modules s
  | package {name : String} : name ∈ modules → Mentions name.toList s → Triggers modules s

/-- White space up to some other character. -/
theorem dropWhile_isBlank_eq_cons_iff {s rest : List Char} {c : Char} :
    s.dropWhile isBlank = c :: rest ↔
      isBlank c = false ∧ ∃ blank, s = blank ++ c :: rest ∧ ∀ b ∈ blank, isBlank b = true := by
  constructor
  · intro h
    have here : isBlank c = false := by
      have := List.head?_dropWhile_not isBlank s
      simpa [h] using this
    refine ⟨here, s.takeWhile isBlank, ?_, fun b hb => List.mem_takeWhile_imp hb⟩
    rw [← h, List.takeWhile_append_dropWhile]
  · rintro ⟨here, blank, rfl, blanks⟩
    rw [List.dropWhile_append_of_pos blanks, List.dropWhile_cons_of_neg (by simp [here])]

/-! ## Words and marks -/

theorem head?_dropWhile_isBlank_iff {mark : Char} (visible : isBlank mark = false)
    {s : List Char} : (s.dropWhile isBlank).head? = some mark ↔
      ∃ blank back, s = blank ++ mark :: back ∧ ∀ b ∈ blank, isBlank b = true := by
  rw [List.head?_eq_some_iff]
  constructor
  · rintro ⟨back, h⟩
    obtain ⟨-, blank, split, blanks⟩ := dropWhile_isBlank_eq_cons_iff.mp h
    exact ⟨blank, back, split, blanks⟩
  · rintro ⟨blank, back, split, blanks⟩
    exact ⟨back, dropWhile_isBlank_eq_cons_iff.mpr ⟨visible, blank, split, blanks⟩⟩

/-- The scan finds the word wherever it stands. The flag speaks for the character in front. -/
theorem usesWord_iff_exists {word : List Char} {mark : Char} (visible : isBlank mark = false)
    {inWord : Bool} {s : List Char} : usesWord word mark inWord s = true ↔
      ∃ front blank back, s = front ++ word ++ blank ++ mark :: back ∧
        (front.getLast?.map isWord).getD inWord = false ∧ ∀ c ∈ blank, isBlank c = true := by
  induction s generalizing inWord with
  | nil => simp [usesWord]
  | cons c rest ih =>
    simp only [usesWord, Bool.or_eq_true, Bool.and_eq_true, ih]
    constructor
    · rintro (⟨free, here⟩ | ⟨front, blank, back, rfl, own, blanks⟩)
      · split at here
        · next after behind =>
          obtain ⟨blank, back, rfl, blanks⟩ :=
            (head?_dropWhile_isBlank_iff visible).mp (by simpa using here)
          refine ⟨[], blank, back, ?_, by simpa using free, blanks⟩
          rw [afterStart?_eq_some_iff.mp behind]
          simp
        · cases here
      · refine ⟨c :: front, blank, back, by simp, ?_, blanks⟩
        cases front <;> simpa [List.getLast?_cons] using own
    · rintro ⟨front, blank, back, split, own, blanks⟩
      cases front with
      | nil =>
        have behind : afterStart? word (c :: rest) = some (blank ++ mark :: back) :=
          afterStart?_eq_some_iff.mpr (by simpa using split)
        refine .inl ⟨by simpa using own, ?_⟩
        simpa [behind] using (head?_dropWhile_isBlank_iff visible).mpr ⟨blank, back, rfl, blanks⟩
      | cons c' front =>
        obtain ⟨rfl, rfl⟩ := List.cons.inj split
        refine .inr ⟨front, blank, back, by simp, ?_, blanks⟩
        cases front <;> simpa [List.getLast?_cons] using own

theorem usesWord_iff {word : List Char} {mark : Char} (visible : isBlank mark = false)
    {s : List Char} : usesWord word mark false s = true ↔ Uses word mark s := by
  have own (front : List Char) : (front.getLast?.map isWord).getD false = false ↔
      ∀ c ∈ front.getLast?, isWord c = false := by
    cases front.getLast? <;> simp
  simp only [usesWord_iff_exists visible, own, Uses]

/-! ## Packages -/

theorem startsWithModule_iff {name s : List Char} : startsWithModule name s = true ↔
    ∃ q path q' back, s = q :: name ++ path ++ q' :: back ∧ isQuote q = true ∧ isQuote q' = true ∧
      (path = [] ∨ ∃ below, path = '/' :: below ∧ ∀ c ∈ below, isQuote c = false) := by
  constructor
  · intro h
    cases s with
    | nil => cases h
    | cons q rest =>
      simp only [startsWithModule, Bool.and_eq_true] at h
      obtain ⟨opens, here⟩ := h
      split at here
      · next c rest' behind =>
        rw [afterStart?_eq_some_iff.mp behind]
        simp only [Bool.or_eq_true, Bool.and_eq_true, decide_eq_true_eq] at here
        rcases here with closes | ⟨rfl, closes⟩
        · exact ⟨q, [], c, rest', by simp, opens, closes, .inl rfl⟩
        · -- The path ends at the first quote behind it.
          obtain ⟨q', found⟩ := Option.isSome_iff_exists.mp (List.find?_isSome.mpr
            (List.any_eq_true.mp closes))
          obtain ⟨ends, below, back, rfl, others⟩ := List.find?_eq_some_iff_append.mp found
          exact ⟨q, '/' :: below, q', back, by simp, opens, ends,
            .inr ⟨below, rfl, by simpa using others⟩⟩
      · cases here
  · rintro ⟨q, path, q', back, rfl, opens, closes, form⟩
    have behind : afterStart? name (name ++ path ++ q' :: back) = some (path ++ q' :: back) :=
      afterStart?_eq_some_iff.mpr (by simp)
    simp only [List.cons_append, startsWithModule, opens, behind, Bool.true_and]
    rcases form with rfl | ⟨below, rfl, -⟩
    · simp [closes]
    · simp [closes]

theorem mentionsModule_iff {name s : List Char} :
    mentionsModule name s = true ↔ Mentions name s := by
  induction s with
  | nil => simp [mentionsModule, Mentions]
  | cons c rest ih =>
    simp only [mentionsModule, Bool.or_eq_true, startsWithModule_iff, ih]
    constructor
    · rintro (⟨q, path, q', back, split, spec⟩ | ⟨front, q, path, q', back, rfl, spec⟩)
      · exact ⟨[], q, path, q', back, split, spec⟩
      · exact ⟨c :: front, q, path, q', back, by simp, spec⟩
    · rintro ⟨front, q, path, q', back, split, spec⟩
      cases front with
      | nil => exact .inl ⟨q, path, q', back, split, spec⟩
      | cons c' front =>
        obtain ⟨rfl, rfl⟩ := List.cons.inj split
        exact .inr ⟨front, q, path, q', back, by simp, spec⟩

theorem isForClient_iff {modules : List String} {s : List Char} :
    isForClient modules s = true ↔ Triggers modules s := by
  have call : isBlank '(' = false := by decide
  have assignment : isBlank '=' = false := by decide
  simp only [isForClient, Bool.or_eq_true, usesWord_iff call, usesWord_iff assignment,
    List.any_eq_true, mentionsModule_iff]
  constructor
  · rintro (((state | effect) | handler) | ⟨name, there, mentioned⟩)
    · exact .hook (by simp) state
    · exact .hook (by simp) effect
    · exact .handler handler
    · exact .package there mentioned
  · rintro (⟨there, uses⟩ | handler | ⟨there, mentioned⟩)
    · simp only [List.mem_cons, List.not_mem_nil, or_false] at there
      rcases there with rfl | rfl
      · exact .inl (.inl (.inl uses))
      · exact .inl (.inl (.inr uses))
    · exact .inl (.inr handler)
    · exact .inr ⟨_, there, mentioned⟩

/-! ## The directive -/

theorem isDirectiveEnd_iff {s : List Char} : isDirectiveEnd s = true ↔
    ∃ back mark rest, s = back ++ mark ++ rest ∧ (mark = [] ∨ mark = [';']) ∧
      ∀ c ∈ back ++ rest, isBlank c = true := by
  have visible : isBlank ';' = false := by decide
  constructor
  · intro h
    unfold isDirectiveEnd at h
    split at h
    · next rest behind =>
      obtain ⟨-, back, rfl, blanks⟩ := dropWhile_isBlank_eq_cons_iff.mp behind
      refine ⟨back, [';'], rest, by simp, .inr rfl, ?_⟩
      have blanks' : ∀ c ∈ rest, isBlank c = true := by simpa [isBlankText] using h
      exact List.forall_mem_append.mpr ⟨blanks, blanks'⟩
    · have none : s.dropWhile isBlank = [] := by simpa using h
      exact ⟨s, [], [], by simp, .inl rfl, by simpa using List.dropWhile_eq_nil_iff.mp none⟩
  · rintro ⟨back, mark, rest, rfl, form, blanks⟩
    obtain ⟨blanks, blanks'⟩ := List.forall_mem_append.mp blanks
    rcases form with rfl | rfl
    · have none : (back ++ [] ++ rest).dropWhile isBlank = [] := by
        rw [List.append_nil]
        exact List.dropWhile_eq_nil_iff.mpr (List.forall_mem_append.mpr ⟨blanks, blanks'⟩)
      rw [isDirectiveEnd, none]
      rfl
    · have behind : (back ++ [';'] ++ rest).dropWhile isBlank = ';' :: rest :=
        dropWhile_isBlank_eq_cons_iff.mpr ⟨visible, back, by simp, blanks⟩
      rw [isDirectiveEnd, behind]
      exact List.all_eq_true.mpr blanks'

theorem not_isBlank_of_isQuote {c : Char} (h : isQuote c = true) : isBlank c = false := by
  simp only [isQuote, Bool.or_eq_true, decide_eq_true_eq] at h
  rcases h with rfl | rfl <;> decide

theorem isDirective_iff {line : Line} : isDirective line = true ↔ IsDirectiveLine line := by
  constructor
  · intro h
    unfold isDirective at h
    split at h
    · next q rest behind =>
      obtain ⟨-, front, rfl, blanks⟩ := dropWhile_isBlank_eq_cons_iff.mp behind
      rw [Bool.and_eq_true] at h
      obtain ⟨quote, h⟩ := h
      split at h
      · next rest' after =>
        obtain rfl := afterStart?_eq_some_iff.mp after
        obtain ⟨back, mark, rest, rfl, form, blanks'⟩ := isDirectiveEnd_iff.mp h
        refine ⟨front, q, back, mark, rest, by simp, quote, form, ?_⟩
        rw [List.append_assoc]
        exact List.forall_mem_append.mpr ⟨blanks, blanks'⟩
      · cases h
    · cases h
  · rintro ⟨front, q, back, mark, rest, rfl, quote, form, blanks⟩
    rw [List.append_assoc] at blanks
    obtain ⟨blanks, blanks'⟩ := List.forall_mem_append.mp blanks
    have behind : (front ++ q :: "use client".toList ++ q :: back ++ mark ++ rest).dropWhile
        isBlank = q :: ("use client".toList ++ [q] ++ (back ++ mark ++ rest)) :=
      dropWhile_isBlank_eq_cons_iff.mpr ⟨not_isBlank_of_isQuote quote, front, by simp, blanks⟩
    have after : afterStart? ("use client".toList ++ [q])
        ("use client".toList ++ [q] ++ (back ++ mark ++ rest)) = some (back ++ mark ++ rest) :=
      afterStart?_eq_some_iff.mpr rfl
    have ends : isDirectiveEnd (back ++ mark ++ rest) = true :=
      isDirectiveEnd_iff.mpr ⟨back, mark, rest, rfl, form, blanks'⟩
    rw [isDirective, behind]
    dsimp only
    rw [after]
    exact Bool.and_eq_true_iff.mpr ⟨quote, ends⟩

/-- The directive is missing just where something calls for it and no line holds it. -/
theorem needsDirective_iff {modules : List String} {s : List Char} :
    needsDirective modules s = true ↔
      Triggers modules s ∧ ∀ line ∈ linesOf s, ¬IsDirectiveLine line := by
  simp only [needsDirective, hasDirective, Bool.and_eq_true, Bool.not_eq_true', isForClient_iff,
    List.any_eq_false, isDirective_iff]
  exact and_comm

end ModuleRepair.Preprocess
