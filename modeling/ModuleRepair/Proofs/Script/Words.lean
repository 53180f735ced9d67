import ModuleRepair.Script.Module

/-!
# Tokens at the front of a text

Each kind of token is found again where it was written, as long as what follows cannot continue it:
a word must not run into an identifier character or an escape (`endsWord`), and a gap must not run
into another blank or a comment (`startsToken`).
-/
namespace ModuleRepair.Script

open ModuleRepair.Text

/-- Whether a word ends in front of a text. -/
def endsWord : List Char → Bool
  | [] => true
  | c :: _ => !isIdentifierPart c && c != '\\'

/-- Whether a token, and no blank or comment, stands in front of a text. -/
def startsToken : List Char → Bool
  | [] => true
  | c :: _ => !isSpace c && c != '/'

/-- Characters that spell a word. -/
def spellsWord (s : List Char) : Bool :=
  s.all isIdentifierPart && s.head?.any (!Char.isDigit ·)

theorem identifierEscape?_eq_none {c : Char} (h : c ≠ '\\') (rest : List Char) :
    identifierEscape? (c :: rest) = none := by
  unfold identifierEscape?
  split <;> simp_all

theorem identifierScan_end {s : List Char} (h : endsWord s = true) (seen : Nat) :
    identifierScan seen 0 s = seen := by
  cases s with
  | nil => rfl
  | cons c rest =>
    simp only [endsWord, Bool.and_eq_true, Bool.not_eq_true', bne_iff_ne] at h
    simp [identifierScan, h.1, identifierEscape?_eq_none h.2]

theorem identifierScan_append {s rest : List Char} (hs : s.all isIdentifierPart = true)
    (hr : endsWord rest = true) (seen : Nat) :
    identifierScan seen 0 (s ++ rest) = seen + s.length := by
  induction s generalizing seen with
  | nil => exact identifierScan_end hr seen
  | cons c s ih =>
    simp only [List.all_cons, Bool.and_eq_true] at hs
    rw [List.cons_append, identifierScan, if_pos hs.1, ih hs.2, List.length_cons]
    omega

theorem word?_append {s rest : List Char} (hs : spellsWord s = true)
    (hr : endsWord rest = true) : word? (s ++ rest) = some s.length := by
  cases s with
  | nil => simp [spellsWord] at hs
  | cons c s =>
    simp only [spellsWord, List.head?_cons, Option.any_some, Bool.and_eq_true,
      Bool.not_eq_true'] at hs
    have scan := identifierScan_append hs.1 hr 0
    rw [List.cons_append] at scan
    simp [word?, hs.2, scan]

/-- No word starts with a character that is not part of one. -/
theorem word?_eq_none {s : List Char} (h : endsWord s = true) : word? s = none := by
  cases s with
  | nil => rfl
  | cons c rest => simp [word?, identifierScan_end h]

theorem keyword?_append (k : List Char) {rest : List Char} (hr : endsWord rest = true) :
    keyword? k (k ++ rest) = some k.length := by
  have hp : k.isPrefixOf (k ++ rest) = true := by simp
  rw [keyword?, if_pos hp, List.drop_left]
  cases rest with
  | nil => rfl
  | cons c rest =>
    simp only [endsWord, Bool.and_eq_true, Bool.not_eq_true', bne_iff_ne] at hr
    simp [hr.1, identifierEscape?_eq_none hr.2]

/-- A word is no keyword other than itself, though it may start with one. -/
theorem keyword?_of_word {k s rest : List Char} (hk : k.all isIdentifierPart = true)
    (hs : s.all isIdentifierPart = true) (hne : s ≠ k) (hr : endsWord rest = true) :
    keyword? k (s ++ rest) = none := by
  unfold keyword?
  split
  · next hp =>
    obtain ⟨more, hm⟩ := List.isPrefixOf_iff_prefix.mp hp
    rcases List.append_eq_append_iff.mp hm with ⟨as, rfl, rfl⟩ | ⟨bs, rfl, rfl⟩
    · -- the keyword is a part of the word, which goes on behind it
      cases as with
      | nil => simp at hne
      | cons c as =>
        simp only [List.all_append, List.all_cons, Bool.and_eq_true] at hs
        simp [hs.2.1]
    · -- the keyword would go on where the word ends
      cases bs with
      | nil => simp at hne
      | cons c bs =>
        simp only [List.all_append, List.all_cons, Bool.and_eq_true] at hk
        simp [endsWord, hk.2.1] at hr
  · rfl

theorem symbol?_eq_none {k s : List Char} (h : k.isPrefixOf s = false) : symbol? k s = none := by
  simp [symbol?, h]

/-- No punctuation starts with a character of a word. -/
theorem symbol?_of_word {c : Char} {k s : List Char} (h : spellsWord s = true)
    (hc : isIdentifierPart c = false) (rest : List Char) : symbol? (c :: k) (s ++ rest) = none := by
  cases s with
  | nil => simp [spellsWord] at h
  | cons d s =>
    simp only [spellsWord, List.all_cons, Bool.and_eq_true] at h
    have other : (c == d) = false := by
      rw [beq_eq_false_iff_ne]
      rintro rfl
      rw [hc] at h
      exact absurd h.1.1 (by simp)
    exact symbol?_eq_none (by simp [List.isPrefixOf, other])

/-- Characters that stand for themselves between quotes. -/
def plainBetween (quote : Char) (s : List Char) : Bool :=
  s.all fun c => c != quote && c != '\\' && c != '\n' && c != '\r'

theorem stringScan_append {quote : Char} {s : List Char} (hs : plainBetween quote s = true)
    (hq : quote ≠ '\\') (rest : List Char) (seen : Nat) :
    stringScan quote seen (s ++ quote :: rest) = some (seen + s.length + 1) := by
  induction s generalizing seen with
  | nil =>
    unfold stringScan
    split <;> simp_all
  | cons c s ih =>
    simp only [plainBetween, List.all_cons, Bool.and_eq_true, bne_iff_ne] at hs
    obtain ⟨⟨⟨⟨notQuote, notEscape⟩, notFeed⟩, notReturn⟩, hs⟩ := hs
    rw [List.cons_append, stringScan]
    · simp [notQuote, notFeed, notReturn, ih hs, Nat.add_assoc, Nat.add_comm 1]
    · exact notEscape

theorem string?_append {quote : Char} (hq : quote = '"' ∨ quote = '\x27') {s : List Char}
    (hs : plainBetween quote s = true) (rest : List Char) :
    string? (quote :: (s ++ quote :: rest)) = some (s.length + 2) := by
  have hne : quote ≠ '\\' := by rcases hq with rfl | rfl <;> decide
  have hb : (quote == '"' || quote == '\x27') = true := by rcases hq with rfl | rfl <;> rfl
  rw [string?, if_pos hb, stringScan_append hs hne]
  congr 1; omega

/-- A scan between comments, at a character that opens none. -/
theorem gapScan_blank {c : Char} (h : c ≠ '/') (rest : List Char) (seen closed : Nat) :
    gapScan .blank seen closed (c :: rest) =
      if isSpace c then gapScan .blank (seen + 1) closed rest else seen := by
  conv => lhs; unfold gapScan
  split <;> simp_all

theorem gapScan_end {s : List Char} (h : startsToken s = true) (seen closed : Nat) :
    gapScan .blank seen closed s = seen := by
  cases s with
  | nil => rfl
  | cons c rest =>
    simp only [startsToken, Bool.and_eq_true, Bool.not_eq_true', bne_iff_ne] at h
    simp [gapScan_blank h.2, h.1]

theorem gapLength_eq_zero {s : List Char} (h : startsToken s = true) : gapLength s = 0 :=
  gapScan_end h 0 0

/-- One blank in front of a token. -/
theorem gapLength_blank {c : Char} (hc : isSpace c = true) {s : List Char}
    (h : startsToken s = true) : gapLength (c :: s) = 1 := by
  have notSlash : c ≠ '/' := by rintro rfl; exact absurd hc (by decide)
  rw [gapLength, gapScan_blank notSlash, if_pos hc, gapScan_end h]

/-- Where the letters and digits of ASCII lie. -/
theorem toNat_of_isAlphanum {c : Char} (h : c.isAlphanum = true) :
    48 ≤ c.toNat ∧ c.toNat ≤ 122 := by
  rcases (Bool.or_eq_true _ _).mp h with letter | digit
  · rcases (Bool.or_eq_true _ _).mp letter with upper | lower
    · obtain ⟨low, high⟩ := of_decide_eq_true upper
      have low : 65 ≤ c.toNat := UInt32.le_iff_toNat_le.mp low
      have high : c.toNat ≤ 90 := UInt32.le_iff_toNat_le.mp high
      omega
    · obtain ⟨low, high⟩ := (Bool.and_eq_true _ _).mp lower
      have low : 97 ≤ c.toNat := UInt32.le_iff_toNat_le.mp (of_decide_eq_true low)
      have high : c.toNat ≤ 122 := UInt32.le_iff_toNat_le.mp (of_decide_eq_true high)
      omega
  · obtain ⟨low, high⟩ := (Bool.and_eq_true _ _).mp digit
    have low : 48 ≤ c.toNat := UInt32.le_iff_toNat_le.mp (of_decide_eq_true low)
    have high : c.toNat ≤ 57 := UInt32.le_iff_toNat_le.mp (of_decide_eq_true high)
    omega

theorem isSpace_of_isIdentifierPart {c : Char} (h : isIdentifierPart c = true) :
    isSpace c = false := by
  rw [isIdentifierPart] at h
  split at h
  · next ascii =>
    simp only [Bool.or_eq_true, beq_iff_eq] at h
    have letter : 33 ≤ c.toNat := by
      rcases h with ((h | rfl) | rfl) | h
      · exact Nat.le_trans (by decide) (toNat_of_isAlphanum h).1
      · decide
      · decide
      · omega
    simp [isSpace]
    omega
  · simpa using h

/-- A word starts a token. -/
theorem startsToken_of_spellsWord {s : List Char} (h : spellsWord s = true) (rest : List Char) :
    startsToken (s ++ rest) = true := by
  cases s with
  | nil => simp [spellsWord] at h
  | cons c s =>
    simp only [spellsWord, List.all_cons, Bool.and_eq_true] at h
    simp only [List.cons_append, startsToken, isSpace_of_isIdentifierPart h.1.1, Bool.not_false,
      Bool.true_and, bne_iff_ne]
    rintro rfl
    exact absurd h.1.1 (by decide)

/-! ## The end of a statement -/

theorem skipGap_blank {c : Char} (h : c ≠ '/') (rest : List Char) :
    skipGap .blank (c :: rest) =
      if isSpace c then skipGap .blank rest else some (c :: rest) := by
  conv => lhs; unfold skipGap
  split <;> simp_all

theorem joinScan_blank {c : Char} (h : c ≠ '/') (e : Ending) (rest : List Char) (seen : Nat) :
    joinScan e .blank seen (c :: rest) =
      if isSpace c then joinScan e .blank (seen + 1) rest else some seen := by
  conv => lhs; unfold joinScan
  split <;> simp_all

theorem closeScan_blank {c : Char} (h : c ≠ '/') (e : Ending) (rest : List Char) (seen : Nat) :
    closeScan e .blank seen (c :: rest) =
      if c == ';' then some (.semicolon (seen + 1))
      else if isSpace c then closeScan e .blank (seen + 1) rest else none := by
  conv => lhs; unfold closeScan
  split <;> simp_all

theorem endsUntyped_sameLine {c : Char} (h : c ≠ '/') (e : Ending) (broken : Bool)
    (rest : List Char) :
    endsUntyped e .sameLine broken (c :: rest) =
      if c == '\x7d' then true
      else if isNewline c then endsAtBreak e rest
      else isSpace c && endsUntyped e .sameLine broken rest := by
  conv => lhs; unfold endsUntyped
  split <;> simp_all

/-- What stands behind a statement of a text that holds one import a line. -/
def endsLine : List Char → Bool
  | [] => true
  | '\n' :: 'i' :: 'm' :: _ => true
  | _ => false

theorem endsAtBreak_import (e : Ending) (rest : List Char) :
    endsAtBreak e ('i' :: 'm' :: rest) = true := by
  rw [endsAtBreak, skipGap_blank (by decide)]
  rfl

theorem endsHere_of_endsLine {e : Ending} {s : List Char} (h : endsLine s = true) :
    endsHere e s = true := by
  obtain ⟨typed, operand, signature⟩ := e
  unfold endsLine at h
  split at h
  · cases typed <;> rfl
  · next rest =>
    cases typed with
    | false =>
      rw [endsHere, if_neg (by simp), endsUntyped_sameLine (by decide)]
      exact endsAtBreak_import ⟨false, operand, signature⟩ rest
    | true =>
      rw [endsHere, if_pos rfl, endsTyped]
      exact endsAtBreak_import ⟨true, operand, signature⟩ rest
  · cases h

theorem endsHere_semicolon (e : Ending) (rest : List Char) : endsHere e (';' :: rest) = false := by
  obtain ⟨typed, _, _⟩ := e
  cases typed with
  | false =>
    rw [endsHere, if_neg (by simp), endsUntyped_sameLine (by decide)]
    rfl
  | true =>
    rw [endsHere, if_pos rfl, endsTyped]
    rfl

theorem closeLength_of_endsLine {e : Ending} {s : List Char} (h : endsLine s = true) :
    closeLength e s = some 0 := by
  simp [closeLength, close?, endsHere_of_endsLine h, Close.length]

theorem closeLength_semicolon (e : Ending) (rest : List Char) :
    closeLength e (';' :: rest) = some 1 := by
  simp [closeLength, close?, endsHere_semicolon, closeScan_blank, Close.length]

theorem joinLength_of_endsLine {e : Ending} {s : List Char} (h : endsLine s = true) :
    joinLength e s = none := by
  simp [joinLength, endsHere_of_endsLine h]

theorem joinLength_semicolon (e : Ending) (rest : List Char) :
    joinLength e (';' :: rest) = some 0 := by
  have notSpace : isSpace ';' = false := by decide
  simp [joinLength, endsHere_semicolon, joinScan_blank, notSpace]

end ModuleRepair.Script
