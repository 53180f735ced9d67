import ModuleRepair.Proofs.Script.Parsed
import ModuleRepair.Proofs.Script.Words
import ModuleRepair.Proofs.Text.Front
import ModuleRepair.Script.Rules
import ModuleRepair.Text.Blank

/-!
# Where tokens end

Every token of a script ends with a character that can be seen, and so takes at least one
(`Visible`). Gaps and the ends of statements are no tokens: they may take nothing.
-/
namespace ModuleRepair.Script

open ModuleRepair.Text

/-- Whether a text ends with a character that is no white space. -/
def endsVisibly (s : List Char) : Bool :=
  s.getLast?.any (!isAsciiBlank ·)

section

variable {s t : List Char} {m n : Nat} {c : Char}

theorem endsVisibly_append (s : List Char) (h : endsVisibly t = true) :
    endsVisibly (s ++ t) = true := by
  cases last : t.getLast? with
  | none =>
    rw [endsVisibly, last] at h
    cases h
  | some c => simpa [endsVisibly, List.getLast?_append, last] using h

theorem endsVisibly_cons (c : Char) (h : endsVisibly t = true) : endsVisibly (c :: t) = true :=
  endsVisibly_append [c] h

theorem endsVisibly_singleton (h : isAsciiBlank c = false) : endsVisibly [c] = true := by
  simp [endsVisibly, h]

theorem ne_nil_of_endsVisibly (h : endsVisibly s = true) : s ≠ [] := by
  rintro rfl
  cases h

/-- A run of characters that can be seen. -/
theorem endsVisibly_of_all (some : s ≠ []) (h : ∀ c ∈ s, isAsciiBlank c = false) :
    endsVisibly s = true := by
  simp [endsVisibly, List.getLast?_eq_some_getLast some, h _ (List.getLast_mem some)]

/-- A run of characters that can be seen at the front of a text, unless there is none. -/
theorem endsVisibly_takeWhile {p : Char → Bool} (h : ∀ c, p c = true → isAsciiBlank c = false)
    (s : List Char) :
    (s.takeWhile p).length = 0 ∨ endsVisibly (s.take (s.takeWhile p).length) = true := by
  rw [← List.prefix_iff_eq_take.mp (List.takeWhile_prefix p)]
  by_cases none : s.takeWhile p = []
  · exact .inl (by rw [none]; rfl)
  · exact .inr (endsVisibly_of_all none fun c hc => h c (List.mem_takeWhile_imp hc))

/-- One more piece of a text. -/
theorem endsVisibly_take_add (m : Nat) (h : endsVisibly ((s.drop m).take n) = true) :
    endsVisibly (s.take (m + n)) = true := by
  rw [List.take_add]
  exact endsVisibly_append _ h

end

theorem isAsciiBlank_eq_false {c : Char} (h : 32 < c.toNat) : isAsciiBlank c = false := by
  have other : c ≠ ' ' := by
    rintro rfl
    exact absurd h (by decide)
  simp [isAsciiBlank, other]
  omega

theorem isSpace_of_isAsciiBlank {c : Char} (h : isAsciiBlank c = true) : isSpace c = true := by
  simp only [isAsciiBlank, Bool.or_eq_true, beq_iff_eq] at h
  rcases h with rfl | h
  · rfl
  · simp [isSpace, h]

theorem not_blank_of_isIdentifierPart {c : Char} (h : isIdentifierPart c = true) :
    isAsciiBlank c = false :=
  Bool.eq_false_iff.mpr fun blank =>
    Bool.noConfusion ((isSpace_of_isAsciiBlank blank).symm.trans (isSpace_of_isIdentifierPart h))

theorem not_blank_of_isAlphanum {c : Char} (h : c.isAlphanum = true) : isAsciiBlank c = false :=
  isAsciiBlank_eq_false (Nat.lt_of_lt_of_le (by decide) (toNat_of_isAlphanum h).1)

/-- A kind of tokens that end with a character that can be seen. -/
def Visible (measure : List Char → Option Nat) : Prop :=
  ∀ s n, measure s = some n → endsVisibly (s.take n) = true

namespace Visible

variable {measure : List Char → Option Nat}

theorem ne_zero (h : Visible measure) (s : List Char) : measure s ≠ some 0 :=
  fun zero => ne_nil_of_endsVisibly (h s 0 zero) rfl

theorem nothing (h : Visible measure) : measure [] = none :=
  Option.eq_none_iff_forall_ne_some.mpr fun n found =>
    ne_nil_of_endsVisibly (h [] n found) List.take_nil

end Visible

theorem visible_keyword {k : List Char} (h : endsVisibly k = true) : Visible (keyword? k) := by
  intro s n read
  unfold keyword? at read
  split at read
  · next start =>
    obtain ⟨rest, rfl⟩ := List.isPrefixOf_iff_prefix.mp start
    obtain rfl := Option.some.inj (Option.ite_none_left_eq_some.mp read).2
    rwa [List.take_left]
  · cases read

theorem visible_symbol {k : List Char} (h : endsVisibly k = true) : Visible (symbol? k) := by
  intro s n read
  obtain ⟨start, same⟩ := Option.ite_none_right_eq_some.mp read
  obtain ⟨rest, rfl⟩ := List.isPrefixOf_iff_prefix.mp start
  obtain rfl := Option.some.inj same
  rwa [List.take_left]

/-! ## Words -/

theorem not_blank_of_hexadecimal {c : Char}
    (h : (c.isDigit || ('a' ≤ c && c ≤ 'f') || ('A' ≤ c && c ≤ 'F')) = true) :
    isAsciiBlank c = false := by
  simp only [Bool.or_eq_true, Bool.and_eq_true, decide_eq_true_eq] at h
  rcases h with (digit | ⟨low, -⟩) | ⟨low, -⟩
  · exact not_blank_of_isAlphanum (by simp [Char.isAlphanum, digit])
  · have low : 97 ≤ c.toNat := UInt32.le_iff_toNat_le.mp low
    exact isAsciiBlank_eq_false (by omega)
  · have low : 65 ≤ c.toNat := UInt32.le_iff_toNat_le.mp low
    exact isAsciiBlank_eq_false (by omega)

theorem visible_identifierEscape : Visible identifierEscape? := by
  intro s n read
  unfold identifierEscape? at read
  split at read
  · next rest =>
    obtain ⟨closed, same⟩ := Option.ite_none_left_eq_some.mp read
    obtain rfl := Option.some.inj same
    simp only [Bool.or_eq_true, bne_iff_ne, ne_eq, not_or, Decidable.not_not] at closed
    generalize rest.takeWhile _ = digits at closed ⊢
    have brace : (rest.drop digits.length).take 1 = ['\x7d'] := by
      cases behind : rest.drop digits.length with
      | nil => simp [behind] at closed
      | cons c more => simpa [behind] using closed.2
    have ends : endsVisibly (rest.take (digits.length + 1)) = true :=
      endsVisibly_take_add digits.length (by rw [brace]; rfl)
    exact endsVisibly_append ['\\', 'u', '\x7b'] ends
  · next rest _ =>
    obtain ⟨digits, same⟩ := Option.ite_none_right_eq_some.mp read
    obtain rfl := Option.some.inj same
    simp only [Bool.and_eq_true, beq_iff_eq, List.all_eq_true] at digits
    obtain ⟨four, hexadecimal⟩ := digits
    have some : rest.take 4 ≠ [] := by
      rw [← List.length_pos_iff, four]
      decide
    have ends := endsVisibly_of_all some fun c hc => not_blank_of_hexadecimal (hexadecimal c hc)
    exact endsVisibly_append ['\\', 'u'] ends
  · cases read

theorem identifierScan_visible (seen skip : Nat) (s : List Char) :
    ∃ n, identifierScan seen skip s = seen + n ∧
      (n = 0 ∨ endsVisibly ((s.drop skip).take n) = true) := by
  fun_induction identifierScan seen skip s with
  | case1 seen skip => exact ⟨0, rfl, .inl rfl⟩
  | case2 seen skip c rest ih => exact ih
  | case3 seen c rest part ih =>
    obtain ⟨n, same, ends⟩ := ih
    refine ⟨n + 1, by omega, .inr ?_⟩
    rcases ends with rfl | ends
    · exact endsVisibly_singleton (not_blank_of_isIdentifierPart part)
    · exact endsVisibly_cons c ends
  | case4 seen c rest part n escape ih =>
    have start := visible_identifierEscape (c :: rest) n escape
    have some := visible_identifierEscape.ne_zero (c :: rest)
    obtain ⟨k, rfl⟩ : ∃ k, n = k + 1 :=
      Nat.exists_eq_add_one_of_ne_zero fun zero => some (zero ▸ escape)
    obtain ⟨m, same, ends⟩ := ih
    refine ⟨k + 1 + m, by omega, .inr ?_⟩
    rcases ends with rfl | ends
    · exact start
    · exact endsVisibly_take_add (k + 1) ends
  | case5 seen c rest part escape => exact ⟨0, rfl, .inl rfl⟩

theorem visible_word : Visible word? := by
  intro s n read
  obtain ⟨m, same, ends⟩ := identifierScan_visible 0 0 s
  rw [Nat.zero_add] at same
  unfold word? at read
  split at read
  · cases read
  · split at read
    · cases read
    · split at read
      · cases read
      · next nonzero =>
        obtain rfl := Option.some.inj read
        rcases ends with rfl | ends
        · exact absurd same nonzero
        · rw [same]
          exact ends

theorem visible_valueWord : Visible valueWord? := by
  intro s n read
  unfold valueWord? at read
  split at read
  · next m word =>
    obtain rfl := Option.some.inj (Option.ite_none_left_eq_some.mp read).2
    exact visible_word s m word
  · cases read

theorem visible_markupName : Visible markupName? := by
  intro s n read
  unfold markupName? at read
  split at read
  · cases read
  · next m word =>
    obtain rfl := Option.some.inj read
    have shown : ∀ c, (isIdentifierPart c || c == '-' || c == '.' || c == ':') = true →
        isAsciiBlank c = false := by
      intro c part
      simp only [Bool.or_eq_true, beq_iff_eq] at part
      rcases part with ((part | rfl) | rfl) | rfl
      · exact not_blank_of_isIdentifierPart part
      all_goals rfl
    rcases endsVisibly_takeWhile shown (s.drop m) with none | ends
    · rw [none]
      exact visible_word s m word
    · exact endsVisibly_take_add m ends

/-! ## Literals -/

theorem stringScan_visible {quote : Char} {seen n : Nat} {s : List Char}
    (shown : isAsciiBlank quote = false) (h : stringScan quote seen s = some n) :
    ∃ m, n = seen + m ∧ endsVisibly (s.take m) = true := by
  fun_induction stringScan quote seen s with
  | case1 => cases h
  | case2 seen rest ih =>
    obtain ⟨m, rfl, ends⟩ := ih h
    exact ⟨m + 3, by omega, endsVisibly_append ['\\', '\r', '\n'] ends⟩
  | case3 seen c rest _ ih =>
    obtain ⟨m, rfl, ends⟩ := ih h
    exact ⟨m + 2, by omega, endsVisibly_append ['\\', c] ends⟩
  | case4 => cases h
  | case5 seen c rest _ same =>
    obtain rfl := beq_iff_eq.mp same
    exact ⟨1, (Option.some.inj h).symm, endsVisibly_singleton shown⟩
  | case6 => cases h
  | case7 seen c rest _ _ _ ih =>
    obtain ⟨m, rfl, ends⟩ := ih h
    exact ⟨m + 1, by omega, endsVisibly_cons c ends⟩

theorem visible_string : Visible string? := by
  intro s n read
  cases s with
  | nil => cases read
  | cons c rest =>
    obtain ⟨quote, scanned⟩ := Option.ite_none_right_eq_some.mp read
    have shown : isAsciiBlank c = false := by
      simp only [Bool.or_eq_true, beq_iff_eq] at quote
      rcases quote with rfl | rfl <;> rfl
    obtain ⟨m, rfl, ends⟩ := stringScan_visible shown scanned
    rw [Nat.add_comm]
    exact endsVisibly_cons c ends

theorem numberScan_visible (seen : Nat) (exponent : Bool) (s : List Char) :
    ∃ n, numberScan seen exponent s = seen + n ∧ (n = 0 ∨ endsVisibly (s.take n) = true) := by
  have step {c : Char} {rest : List Char} {n : Nat} (shown : isAsciiBlank c = false)
      (ends : n = 0 ∨ endsVisibly (rest.take n) = true) :
      n + 1 = 0 ∨ endsVisibly ((c :: rest).take (n + 1)) = true := by
    rcases ends with rfl | ends
    · exact .inr (endsVisibly_singleton shown)
    · exact .inr (endsVisibly_cons c ends)
  fun_induction numberScan seen exponent s with
  | case1 => exact ⟨0, rfl, .inl rfl⟩
  | case2 seen exponent c rest letter ih =>
    obtain ⟨n, same, ends⟩ := ih
    refine ⟨n + 1, by omega, step ?_ ends⟩
    simp only [Bool.or_eq_true, beq_iff_eq] at letter
    rcases letter with (letter | rfl) | rfl
    · exact not_blank_of_isAlphanum letter
    all_goals rfl
  | case3 seen exponent c rest _ sign ih =>
    obtain ⟨n, same, ends⟩ := ih
    refine ⟨n + 1, by omega, step ?_ ends⟩
    simp only [Bool.and_eq_true, Bool.or_eq_true, beq_iff_eq] at sign
    rcases sign.2 with rfl | rfl <;> rfl
  | case4 => exact ⟨0, rfl, .inl rfl⟩

theorem visible_number : Visible number? := by
  intro s n read
  cases s with
  | nil => cases read
  | cons c rest =>
    obtain ⟨m, same, ends⟩ := numberScan_visible 1 false rest
    have first : isAsciiBlank c = false ∧ numberScan 1 false rest = n := by
      simp only [number?] at read
      split at read
      · next digit =>
        exact ⟨not_blank_of_isAlphanum (by simp [Char.isAlphanum, digit]), Option.some.inj read⟩
      · obtain ⟨point, scanned⟩ := Option.ite_none_right_eq_some.mp read
        simp only [Bool.and_eq_true, beq_iff_eq] at point
        obtain ⟨rfl, -⟩ := point
        exact ⟨rfl, Option.some.inj scanned⟩
    obtain rfl : n = m + 1 := by omega
    rcases ends with rfl | ends
    · exact endsVisibly_singleton first.1
    · exact endsVisibly_cons c ends

theorem regexScan_visible {inClass : Bool} {seen n : Nat} {s : List Char}
    (h : regexScan inClass seen s = some n) :
    ∃ m, n = seen + m ∧ endsVisibly (s.take m) = true := by
  fun_induction regexScan inClass seen s with
  | case1 => cases h
  | case2 => cases h
  | case3 inClass seen c rest _ ih =>
    obtain ⟨m, rfl, ends⟩ := ih h
    exact ⟨m + 2, by omega, endsVisibly_append ['\\', c] ends⟩
  | case4 => cases h
  | case5 => cases h
  | case8 inClass seen c rest _ _ _ _ slash =>
    obtain ⟨rfl, -⟩ : c = '/' ∧ inClass = false := by simpa using slash
    exact ⟨1, (Option.some.inj h).symm, rfl⟩
  | case6 inClass seen c rest _ _ _ ih
  | case7 inClass seen c rest _ _ _ _ ih
  | case9 inClass seen c rest _ _ _ _ _ ih =>
    obtain ⟨m, rfl, ends⟩ := ih h
    exact ⟨m + 1, by omega, endsVisibly_cons c ends⟩

theorem visible_regex : Visible regex? := by
  intro s n read
  unfold regex? at read
  split at read
  · next rest =>
    split at read
    · cases read
    · cases read
    · obtain ⟨m, scanned, rfl⟩ := Option.map_eq_some_iff.mp read
      obtain ⟨k, rfl, ends⟩ := regexScan_visible scanned
      have letters : ∀ c, c.isAlpha = true → isAsciiBlank c = false := fun c alpha =>
        not_blank_of_isAlphanum (by simp [Char.isAlphanum, alpha])
      rw [Nat.add_sub_cancel_left, Nat.add_assoc, Nat.add_comm]
      refine endsVisibly_cons '/' ?_
      rcases endsVisibly_takeWhile letters (rest.drop k) with none | flags
      · rwa [none]
      · exact endsVisibly_take_add k flags
  · cases read

theorem visible_markupString : Visible markupString? := by
  intro s n read
  cases s with
  | nil => cases read
  | cons c rest =>
    obtain ⟨quote, read⟩ := Option.ite_none_right_eq_some.mp read
    obtain ⟨closed, same⟩ := Option.ite_none_right_eq_some.mp read
    obtain rfl := Option.some.inj same
    have shown : isAsciiBlank c = false := by
      simp only [Bool.or_eq_true, beq_iff_eq] at quote
      rcases quote with rfl | rfl <;> rfl
    have whole := List.takeWhile_append_dropWhile (p := (· != c)) (l := rest)
    have stops := head?_dropWhile (· != c) rest
    generalize rest.takeWhile (· != c) = body at closed whole ⊢
    cases left : rest.dropWhile (· != c) with
    | nil =>
      rw [left, List.append_nil] at whole
      exact absurd closed (by rw [whole]; exact Nat.lt_irrefl _)
    | cons d more =>
      obtain rfl : d = c := by simpa [left] using stops
      have ends : endsVisibly (body ++ [d]) = true :=
        endsVisibly_append body (endsVisibly_singleton shown)
      rw [left] at whole
      have front : rest.take (body.length + 1) = body ++ [d] := by
        rw [← whole, List.take_length_add_append]
        rfl
      exact endsVisibly_cons d (front ▸ ends)

theorem visible_operator : Visible operator? := by
  intro s n read
  have shown : ∀ symbol ∈ operatorSymbols, endsVisibly symbol = true := List.all_eq_true.mp rfl
  obtain ⟨-, read⟩ := Option.ite_none_left_eq_some.mp read
  obtain ⟨symbol, found, rfl⟩ := Option.map_eq_some_iff.mp read
  have start := List.find?_some found
  obtain ⟨rest, rfl⟩ := List.isPrefixOf_iff_prefix.mp start
  rw [List.take_left]
  exact shown symbol (List.mem_of_find?_eq_some found)

end ModuleRepair.Script
