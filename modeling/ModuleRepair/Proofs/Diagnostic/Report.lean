import Mathlib.Data.List.Basic
import ModuleRepair.Diagnostic.Report
import ModuleRepair.Proofs.Script.Words
import ModuleRepair.Proofs.Text.Trim

/-!
# The lines of a report

A line that has neither of the two forms is no diagnostic (`diagnostic?_eq_none`). Numbers are read up
to their last digit, and a text without colour codes keeps all its characters.
-/
namespace ModuleRepair.Report

open ModuleRepair.Text

/-- A number in digits of any script. -/
def Digits (s : List Char) : Prop :=
  s ≠ [] ∧ ∀ c ∈ s, isDecimal c = true

/-- The place of a diagnostic, up to its category. -/
def placeText (line column : List Char) : List Char :=
  '(' :: (line ++ ',' :: (column ++ "): ".toList))

/-- A category, a code and a message. -/
def IsBody (s : List Char) : Prop :=
  ∃ category ∈ categories, ∃ code message, Digits code ∧
    s = category.toList ++ " TS".toList ++ (code ++ (": ".toList ++ message))

/-- A line of the form `file(line,column): category TScode: message`. -/
def IsPlain (s : List Char) : Prop :=
  ∃ file line column rest, file ≠ [] ∧ Digits line ∧ Digits column ∧ IsBody rest ∧
    s = file ++ (placeText line column ++ rest)

/-- A line of the form `file:line:column - category TScode: message`. -/
def IsPretty (s : List Char) : Prop :=
  ∃ file line column rest, file ≠ [] ∧ Digits line ∧ Digits column ∧ IsBody rest ∧
    s = file ++ (':' :: (line ++ ':' :: (column ++ (" - ".toList ++ rest))))

/-! ## Numbers -/

theorem digitValue?_of_isDigit {c : Char} (h : c.isDigit = true) :
    digitValue? c = some (c.toNat - '0'.toNat) := by
  have ascii : c.toNat < 0x80 :=
    Nat.lt_of_le_of_lt (Script.toNat_of_isAlphanum (by simp [Char.isAlphanum, h])).2 (by decide)
  rw [digitValue?, if_pos ascii, if_pos h]
  rfl

theorem isDigit_of_mem_toString {n : Nat} {c : Char} (h : c ∈ (toString n).toList) :
    c.isDigit = true := by
  rw [Nat.toString_eq_ofList_toDigits, String.toList_ofList] at h
  exact Nat.isDigit_of_mem_toDigits (by decide) (by decide) h

theorem digits_toString (n : Nat) : Digits (toString n).toList := by
  refine ⟨?_, fun c hc => ?_⟩
  · rw [Nat.toString_eq_ofList_toDigits, String.toList_ofList]
    exact Nat.toDigits_ne_nil
  · rw [isDecimal, digitValue?_of_isDigit (isDigit_of_mem_toString hc)]
    rfl

theorem numeral_toString (n : Nat) : numeral (toString n).toList = n := by
  have values : numeral (toString n).toList = Nat.ofDigitChars 10 (toString n).toList 0 := by
    refine List.foldl_ext _ _ 0 fun m c hc => ?_
    rw [digitValue?_of_isDigit (isDigit_of_mem_toString hc)]
    rfl
  rw [values, Nat.toString_eq_ofList_toDigits, String.toList_ofList]
  exact Nat.ofDigitChars_toDigits (by decide) (by decide)

theorem number?_reads (n : Nat) {c : Char} (stops : isDecimal c = false) (rest : List Char) :
    number? ((toString n).toList ++ c :: rest) = some (n, c :: rest) := by
  obtain ⟨some', inside⟩ := digits_toString n
  have cut : ((toString n).toList ++ c :: rest).span isDecimal =
      ((toString n).toList, c :: rest) := span_eq_iff.mpr ⟨rfl, inside, by simpa using stops⟩
  obtain ⟨d, digits, same⟩ := List.exists_cons_of_ne_nil some'
  rw [number?, cut, same]
  dsimp only
  rw [← same, numeral_toString]

theorem digits_of_number? {s rest : List Char} {n : Nat} (h : number? s = some (n, rest)) :
    ∃ digits, Digits digits ∧ s = digits ++ rest := by
  unfold number? at h
  split at h
  · cases h
  · next digits rest' some' cut =>
    obtain ⟨rfl, inside, -⟩ := span_eq_iff.mp cut
    cases h
    exact ⟨digits, ⟨some', inside⟩, rfl⟩

/-! ## The two forms -/

theorem isBody_of_body? {line column : Nat} {s : List Char} {body : Body}
    (h : body? line column s = some body) : IsBody s := by
  simp only [body?, Option.bind_eq_bind, Option.bind_eq_some_iff] at h
  obtain ⟨category, listed, rest, start, ⟨code, rest'⟩, number, message, colon, -⟩ := h
  dsimp only at colon
  obtain ⟨digits, areDigits, rfl⟩ := digits_of_number? number
  refine ⟨category, List.mem_of_find?_eq_some listed, digits, message, areDigits, ?_⟩
  rw [afterStart?_eq_some_iff.mp start, afterStart?_eq_some_iff.mp colon]

theorem place_of_plainBody? {s : List Char} {body : Body} (h : plainBody? s = some body) :
    ∃ line column rest, Digits line ∧ Digits column ∧ IsBody rest ∧
      s = placeText line column ++ rest := by
  simp only [plainBody?, Option.bind_eq_bind, Option.bind_eq_some_iff] at h
  obtain ⟨s₁, opening, ⟨line, s₂⟩, lines, s₃, comma, ⟨column, s₄⟩, columns, rest, closing, body'⟩ := h
  dsimp only at comma closing
  obtain ⟨digits, areDigits, rfl⟩ := digits_of_number? lines
  obtain ⟨digits', areDigits', rfl⟩ := digits_of_number? columns
  refine ⟨digits, digits', rest, areDigits, areDigits', isBody_of_body? body', ?_⟩
  rw [afterStart?_eq_some_iff.mp opening, afterStart?_eq_some_iff.mp comma,
    afterStart?_eq_some_iff.mp closing]
  simp [placeText]

theorem place_of_prettyBody? {s : List Char} {body : Body} (h : prettyBody? s = some body) :
    ∃ line column rest, Digits line ∧ Digits column ∧ IsBody rest ∧
      s = ':' :: (line ++ ':' :: (column ++ (" - ".toList ++ rest))) := by
  simp only [prettyBody?, Option.bind_eq_bind, Option.bind_eq_some_iff] at h
  obtain ⟨s₁, opening, ⟨line, s₂⟩, lines, s₃, colon, ⟨column, s₄⟩, columns, rest, dash, body'⟩ := h
  dsimp only at colon dash
  obtain ⟨digits, areDigits, rfl⟩ := digits_of_number? lines
  obtain ⟨digits', areDigits', rfl⟩ := digits_of_number? columns
  refine ⟨digits, digits', rest, areDigits, areDigits', isBody_of_body? body', ?_⟩
  rw [afterStart?_eq_some_iff.mp opening, afterStart?_eq_some_iff.mp colon,
    afterStart?_eq_some_iff.mp dash]
  simp

/-- A line is cut behind its first character, in front of one of its ends. -/
theorem cutAt?_split {form : List Char → Option Body} {line file : List Char} {body : Body}
    (h : cutAt? form line = some (file, body)) :
    ∃ front rest, front ≠ [] ∧ line = front ++ rest ∧ form rest = some body := by
  cases line with
  | nil => cases h
  | cons c line =>
    obtain ⟨⟨n, body⟩, found, same⟩ := Option.map_eq_some_iff.mp h
    cases same
    obtain ⟨rest, ⟨front, rfl⟩, fits⟩ := findFirst?_suffix found
    exact ⟨c :: front, rest, List.cons_ne_nil c front, rfl, fits⟩

/-- A line of neither form is no diagnostic. -/
theorem diagnostic?_eq_none {directory : String} {line : List Char} (plain : ¬IsPlain line)
    (pretty : ¬IsPretty line) : diagnostic? directory line = none := by
  have noPlain : cutAt? plainBody? line = none := by
    refine Option.eq_none_iff_forall_ne_some.mpr fun ⟨file, body⟩ found => plain ?_
    obtain ⟨front, rest, some', rfl, fits⟩ := cutAt?_split found
    obtain ⟨l, c, body, hl, hc, hb, rfl⟩ := place_of_plainBody? fits
    exact ⟨front, l, c, body, some', hl, hc, hb, rfl⟩
  have noPretty : cutAt? prettyBody? line = none := by
    refine Option.eq_none_iff_forall_ne_some.mpr fun ⟨file, body⟩ found => pretty ?_
    obtain ⟨front, rest, some', rfl, fits⟩ := cutAt?_split found
    obtain ⟨l, c, body, hl, hc, hb, rfl⟩ := place_of_prettyBody? fits
    exact ⟨front, l, c, body, some', hl, hc, hb, rfl⟩
  rw [diagnostic?, noPlain, noPretty]
  rfl

/-! ## Colours -/

/-- No colour code is in a text. -/
def Colourless (s : List Char) : Prop :=
  ∀ rest, '\x1b' :: rest <:+ s → colourLength? rest = none

/-- A character that neither starts, continues nor ends a colour code behind its escape. -/
def stopsColour (c : Char) : Bool :=
  c ≠ '[' && !c.isDigit && c ≠ ';' && c ≠ 'm'

theorem colourLength?_eq {run after : List Char}
    (inside : ∀ c ∈ run, (c.isDigit || c == ';') = true)
    (stops : ∀ c ∈ after.head?, (c.isDigit || c == ';') = false) :
    colourLength? ('[' :: (run ++ after)) =
      if after.head? = some 'm' then some (run.length + 2) else none := by
  rw [colourLength?, takeWhile_exact inside stops, List.drop_left]

theorem colourLength?_append {s rest : List Char} {c : Char} (h : colourLength? s = none)
    (stops : stopsColour c = true) : colourLength? (s ++ c :: rest) = none := by
  simp only [stopsColour, Bool.and_eq_true, decide_eq_true_eq, Bool.not_eq_true'] at stops
  obtain ⟨⟨⟨noBracket, noDigit⟩, noSemicolon⟩, noEnd⟩ := stops
  cases s with
  | nil => simp [colourLength?, noBracket]
  | cons d s =>
    by_cases bracket : d = '['
    · subst bracket
      obtain ⟨run, after, cut⟩ : ∃ run after,
          s.span (fun c => c.isDigit || c == ';') = (run, after) := ⟨_, _, rfl⟩
      obtain ⟨rfl, inside, ends⟩ := span_eq_iff.mp cut
      rw [colourLength?_eq inside ends] at h
      have whole : '[' :: (run ++ after) ++ c :: rest = '[' :: (run ++ (after ++ c :: rest)) := by
        simp
      rw [whole, colourLength?_eq inside]
      · cases after with
        | nil => simpa using noEnd
        | cons e after => simpa using h
      · cases after with
        | nil => simp [noDigit, noSemicolon]
        | cons e after => simpa using ends
    · simp [colourLength?, bracket]

theorem dropColours_of_colourless {s : List Char} (h : Colourless s) : dropColours 0 s = s := by
  induction s with
  | nil => rfl
  | cons c s ih =>
    have later := ih fun rest ht => h rest (ht.trans (List.suffix_cons c s))
    unfold dropColours
    split
    · next escape =>
      subst escape
      rw [h s (List.suffix_refl _)]
      exact congrArg _ later
    · exact congrArg _ later

theorem dropColours_append {s : List Char} (h : Colourless s) {c : Char}
    (stops : stopsColour c = true) (rest : List Char) :
    dropColours 0 (s ++ c :: rest) = s ++ dropColours 0 (c :: rest) := by
  induction s with
  | nil => rfl
  | cons d s ih =>
    have later := ih fun rest ht => h rest (ht.trans (List.suffix_cons d s))
    rw [List.cons_append, List.cons_append, ← later]
    conv_lhs => unfold dropColours
    split
    · next escape =>
      subst escape
      rw [colourLength?_append (h s (List.suffix_refl _)) stops]
    · rfl

theorem dropColours_plain {s : List Char} (h : '\x1b' ∉ s) (rest : List Char) :
    dropColours 0 (s ++ rest) = s ++ dropColours 0 rest := by
  induction s with
  | nil => rfl
  | cons c s ih =>
    obtain ⟨other, later⟩ := List.ne_and_not_mem_of_not_mem_cons h
    rw [List.cons_append, dropColours, if_neg (Ne.symm other), ih later, List.cons_append]

end ModuleRepair.Report
