import ModuleRepair.Proofs.Diagnostic.Classify
import ModuleRepair.Proofs.Import.WellFormed

/-!
# The compiler's messages

The compiler names what a fix needs between quotes, and some of it several times. It is read back
from the right place, whatever the names are (`Complaint.classify?_eq`).
-/
namespace ModuleRepair.Fix

open ModuleRepair.Text

/-- An identifier in ASCII. -/
def isAsciiIdentifier (s : String) : Bool :=
  s.toList.all isPlainLetter && s.toList.head?.any startsIdentifier

/-- A text that can stand between quotes of either kind. -/
structure Quotable (s : String) : Prop where
  ne_empty : s ≠ ""
  noDouble : '"' ∉ s.toList
  noSingle : '\x27' ∉ s.toList

instance (s : String) : Decidable (Quotable s) :=
  decidable_of_iff (s ≠ "" ∧ '"' ∉ s.toList ∧ '\x27' ∉ s.toList)
    ⟨fun ⟨there, double, single⟩ => ⟨there, double, single⟩,
      fun h => ⟨h.ne_empty, h.noDouble, h.noSingle⟩⟩

theorem continues_of_plain {c : Char} (h : isPlainLetter c = true) :
    continuesIdentifier c = true := by
  have ascii := toNat_lt_of_plain h
  simp only [isPlainLetter, Bool.or_eq_true] at h
  simp only [continuesIdentifier, isWord, ascii, if_true, Bool.or_eq_true]
  exact h

theorem isIdentifier_of_ascii {s : String} (h : isAsciiIdentifier s = true) :
    IsIdentifier s.toList := by
  simp only [isAsciiIdentifier, Bool.and_eq_true, List.all_eq_true] at h
  obtain ⟨letters, starts⟩ := h
  cases same : s.toList with
  | nil => simp [same] at starts
  | cons c rest =>
    rw [same] at letters starts
    exact ⟨c, rest, rfl, by simpa using starts,
      fun d hd => continues_of_plain (letters d (List.mem_cons_of_mem c hd))⟩

theorem not_mem_of_ascii {s : String} (h : isAsciiIdentifier s = true) {c : Char}
    (hc : isPlainLetter c = false) : c ∉ s.toList := by
  simp only [isAsciiIdentifier, Bool.and_eq_true, List.all_eq_true] at h
  intro there
  rw [h.1 c there] at hc
  cases hc

theorem upTo?_reads {mark : Char} {before : List Char} (some' : before ≠ [])
    (missing : mark ∉ before) (rest : List Char) :
    upTo? mark (before ++ mark :: rest) = some (before, rest) :=
  upTo?_eq_some_iff.mpr ⟨rfl, some', missing⟩

theorem not_isBlank_of_ascii {s : String} (h : isAsciiIdentifier s = true) :
    ∀ c ∈ s.toList, isBlank c = false := by
  intro c hc
  simp only [isAsciiIdentifier, Bool.and_eq_true, List.all_eq_true, isPlainLetter,
    Bool.or_eq_true, beq_iff_eq] at h
  rcases h.1 c hc with (alphanumeric | rfl) | rfl
  · have bounds := Script.toNat_of_isAlphanum alphanumeric
    simp [isBlank]
    omega
  · decide
  · decide

/-- Spaces around a name are not part of it. -/
theorem trim_spaced {s : String} (h : isAsciiIdentifier s = true) :
    trim (' ' :: s.toList ++ [' ']) = s.toList := by
  have shown := not_isBlank_of_ascii h
  have space : ∀ c ∈ [' '], isBlank c = true := List.forall_mem_singleton.mpr rfl
  exact trim_between space (fun c hc => shown c (List.mem_of_mem_head? hc))
    (fun c hc => shown c (List.mem_of_mem_getLast? hc)) space

theorem suggestedSpecifier?_reads {specifier : String} (h : Quotable specifier)
    (rest : List Char) : suggestedSpecifier?
      (" from \"".toList ++ (specifier.toList ++ '"' :: '\x27' :: rest)) =
        some specifier.toList := by
  have cut := upTo?_reads (by simpa using h.ne_empty) h.noDouble ('\x27' :: rest)
  have quote : afterStart? "\x27".toList ('\x27' :: rest) = some rest :=
    afterStart?_append "\x27".toList rest
  simp only [suggestedSpecifier?, Option.bind_eq_bind, afterStart?_append, Option.bind_some, cut,
    quote]
  rfl

theorem identifier?_reads {name : String} (h : isAsciiIdentifier name = true) {c : Char}
    (stops : continuesIdentifier c = false) (rest : List Char) :
    identifier? (name.toList ++ c :: rest) = some (name.toList, c :: rest) :=
  identifier?_eq_some_iff.mpr ⟨rfl, isIdentifier_of_ascii h, by simpa using stops⟩

/-! ## What the compiler writes -/

/-- What the compiler complains about. -/
inductive Complaint where
  /-- A name that a module exports, but not by default. -/
  | noDefault (name specifier : String)
  /-- A name that a module exports by default only. -/
  | onlyDefault (name specifier : String)
  | unknownName (name : String)
  /-- An unknown name, and one that is spelled like it. -/
  | misspelledName (name alike : String)
  | unknownModule (specifier : String)
  deriving DecidableEq, Repr

namespace Complaint

def code : Complaint → Int
  | noDefault _ _ => 2613
  | onlyDefault _ _ => 2614
  | unknownName _ => 2304
  | misspelledName _ _ => 2552
  | unknownModule _ => 2307

def message : Complaint → String
  | noDefault name specifier =>
    "Module '\"" ++ specifier ++ "\"' has no default export. " ++
      "Did you mean to use 'import \x7b " ++ name ++ " \x7d from \"" ++ specifier ++ "\"' instead?"
  | onlyDefault name specifier =>
    "Module '\"" ++ specifier ++ "\"' has no exported member '" ++ name ++ "'. " ++
      "Did you mean to use 'import " ++ name ++ " from \"" ++ specifier ++ "\"' instead?"
  | unknownName name => "Cannot find name '" ++ name ++ "'."
  | misspelledName name alike =>
    "Cannot find name '" ++ name ++ "'. Did you mean '" ++ alike ++ "'?"
  | unknownModule specifier =>
    "Cannot find module '" ++ specifier ++ "' or its corresponding type declarations."

/-- The fix that the complaint asks for. -/
def fix : Complaint → Fix
  | noDefault name specifier => .importByName name specifier
  | onlyDefault name specifier => .importDefault name specifier
  | unknownName name | misspelledName name _ => .addImport name
  | unknownModule specifier => .correctPath specifier

/-- Names are identifiers, and specifiers can stand between quotes. -/
def WellFormed : Complaint → Prop
  | noDefault name specifier | onlyDefault name specifier =>
    isAsciiIdentifier name = true ∧ Quotable specifier
  | unknownName name | misspelledName name _ => isAsciiIdentifier name = true
  | unknownModule specifier => Quotable specifier

end Complaint

/-! ## Reading it back -/

/-- A search reads what stands behind a front in which its pattern fits nowhere. -/
theorem search_reads {α : Type} {pattern : List Char → Option α} {s : String} {a : α}
    {front rest : List Char} (text : s.toList = front ++ rest)
    (nowhere : FitsNowhere pattern front rest) (here : pattern rest = some a) :
    search pattern s = some a := by
  simp [search, text, findFirst?_append nowhere, findFirst?_here here]

theorem search_here {α : Type} {pattern : List Char → Option α} {s : String} {a : α}
    {rest : List Char} (text : s.toList = rest) (here : pattern rest = some a) :
    search pattern s = some a := by
  simp [search, text, findFirst?_here here]

/-- A pattern that starts with the words of a suggestion. -/
structure Suggests {α : Type} (pattern : List Char → Option α) : Prop where
  starts : ∀ s, afterStart? suggestion s = none → pattern s = none

namespace Suggests

variable {α : Type} {pattern : List Char → Option α} {front rest : List Char}

theorem nowhere (h : Suggests pattern) (missing : 'D' ∉ front) :
    FitsNowhere pattern front rest := fun _ ht some =>
  h.starts _ (afterStart?_eq_none_of_head some fun there => missing (ht.subset there))

/-- The first word of a suggestion is followed by a space, and its quotation mark by a name. -/
theorem nowhere_of_stops (h : Suggests pattern) {q c : Char} {start more : List Char}
    (words : suggestion = start ++ more) (stops : q ∉ start) (there : c ∈ start)
    (missing : c ∉ front) : FitsNowhere pattern front (q :: rest) := by
  intro t ht some
  refine h.starts _ ?_
  rw [words]
  exact afterStart?_eq_none_of_stops stops there (fun found => missing (ht.subset found)) more

end Suggests

theorem suggestedNamed?_suggests : Suggests suggestedNamed? where
  starts s h := by simp [suggestedNamed?, h]

theorem suggestedDefault?_suggests : Suggests suggestedDefault? where
  starts s h := by simp [suggestedDefault?, h]

theorem suggestedNamed?_reads {name specifier : String} (hn : isAsciiIdentifier name = true)
    (hs : Quotable specifier) (rest : List Char) :
    suggestedNamed? (suggestion ++ ("\x7b".toList ++ ((' ' :: name.toList ++ [' ']) ++ '\x7d' ::
      (" from \"".toList ++ (specifier.toList ++ '"' :: '\x27' :: rest))))) =
        some (name.toList, specifier.toList) := by
  have braces : '\x7d' ∉ ' ' :: name.toList ++ [' '] := by
    simpa using not_mem_of_ascii hn (by decide)
  have some : ' ' :: name.toList ++ [' '] ≠ [] := by simp
  have cut := upTo?_reads some braces
  simp only [suggestedNamed?, Option.bind_eq_bind, afterStart?_append, Option.bind_some, cut,
    suggestedSpecifier?_reads hs, trim_spaced hn]
  rfl

theorem suggestedDefault?_reads {name specifier : String} (hn : isAsciiIdentifier name = true)
    (hs : Quotable specifier) (rest : List Char) :
    suggestedDefault? (suggestion ++ (name.toList ++
      (" from \"".toList ++ (specifier.toList ++ '"' :: '\x27' :: rest)))) =
        some (name.toList, specifier.toList) := by
  have cut := identifier?_reads (c := ' ') hn (by decide)
    ("from \"".toList ++ (specifier.toList ++ '"' :: '\x27' :: rest))
  have space : " from \"".toList = ' ' :: "from \"".toList := rfl
  simp only [suggestedDefault?, Option.bind_eq_bind, afterStart?_append, Option.bind_some]
  rw [space, List.cons_append, cut, Option.bind_some, ← List.cons_append, ← space,
    suggestedSpecifier?_reads hs]
  rfl

theorem missingName?_reads {name : String} (h : isAsciiIdentifier name = true)
    (rest : List Char) : missingName? ("Cannot find name '".toList ++
      (name.toList ++ '\x27' :: rest)) = some name.toList := by
  have cut := identifier?_reads (c := '\x27') h (by decide) rest
  have quote : afterStart? "\x27".toList ('\x27' :: rest) = some rest :=
    afterStart?_append "\x27".toList rest
  simp only [missingName?, Option.bind_eq_bind, afterStart?_append, Option.bind_some, cut, quote]
  rfl

theorem missingModule?_reads {specifier : String} (h : Quotable specifier) (rest : List Char) :
    missingModule? ("Cannot find module '".toList ++ (specifier.toList ++ '\x27' :: rest)) =
      some specifier.toList := by
  have cut := upTo?_reads (by simpa using h.ne_empty) h.noSingle rest
  simp only [missingModule?, Option.bind_eq_bind, afterStart?_append, Option.bind_some, cut]
  rfl

namespace Complaint

theorem toList_noDefault (name specifier : String) : (noDefault name specifier).message.toList =
    ("Module '\"".toList ++ (specifier.toList ++ '"' :: "' has no default export. ".toList)) ++
      (suggestion ++ ("\x7b".toList ++ ((' ' :: name.toList ++ [' ']) ++ '\x7d' ::
        (" from \"".toList ++ (specifier.toList ++ '"' :: '\x27' :: " instead?".toList))))) := by
  have closing : "\"' has no default export. ".toList = '"' :: "' has no default export. ".toList :=
    rfl
  have opening : "Did you mean to use 'import \x7b ".toList =
      suggestion ++ ("\x7b".toList ++ [' ']) := rfl
  have between : " \x7d from \"".toList = ' ' :: '\x7d' :: " from \"".toList := rfl
  have ending : "\"' instead?".toList = '"' :: '\x27' :: " instead?".toList := rfl
  unfold message
  simp only [String.toList_append, closing, opening, between, ending, List.append_assoc,
    List.cons_append, List.nil_append]

theorem toList_onlyDefault (name specifier : String) :
    (onlyDefault name specifier).message.toList =
      ("Module '\"".toList ++ (specifier.toList ++ '"' :: ("' has no exported member '".toList ++
        (name.toList ++ '\x27' :: ". ".toList)))) ++
      (suggestion ++ (name.toList ++
        (" from \"".toList ++ (specifier.toList ++ '"' :: '\x27' :: " instead?".toList)))) := by
  have closing : "\"' has no exported member '".toList =
      '"' :: "' has no exported member '".toList := rfl
  have quote : "'. ".toList = '\x27' :: ". ".toList := rfl
  have opening : "Did you mean to use 'import ".toList = suggestion := rfl
  have ending : "\"' instead?".toList = '"' :: '\x27' :: " instead?".toList := rfl
  unfold message
  simp only [String.toList_append, closing, quote, opening, ending, List.append_assoc,
    List.cons_append]

theorem toList_unknownName (name : String) : (unknownName name).message.toList =
    "Cannot find name '".toList ++ (name.toList ++ '\x27' :: ".".toList) := by
  have ending : "'.".toList = '\x27' :: ".".toList := rfl
  unfold message
  simp only [String.toList_append, ending, List.append_assoc]

theorem toList_misspelledName (name alike : String) : (misspelledName name alike).message.toList =
    "Cannot find name '".toList ++ (name.toList ++ '\x27' ::
      (". Did you mean '".toList ++ (alike.toList ++ "'?".toList))) := by
  have middle : "'. Did you mean '".toList = '\x27' :: ". Did you mean '".toList := rfl
  unfold message
  simp only [String.toList_append, middle, List.append_assoc, List.cons_append]

theorem toList_unknownModule (specifier : String) : (unknownModule specifier).message.toList =
    "Cannot find module '".toList ++ (specifier.toList ++
      '\x27' :: " or its corresponding type declarations.".toList) := by
  have ending : "' or its corresponding type declarations.".toList =
      '\x27' :: " or its corresponding type declarations.".toList := rfl
  unfold message
  simp only [String.toList_append, ending, List.append_assoc]

/-- A specifier between the words of a message, in which no suggestion starts. -/
theorem quoted_nowhere {α : Type} {pattern : List Char → Option α} (h : Suggests pattern)
    {specifier : String} (hs : Quotable specifier) {more rest : List Char}
    (behind : FitsNowhere pattern more rest) : FitsNowhere pattern
      ("Module '\"".toList ++ (specifier.toList ++ '"' :: more)) rest := by
  have words : suggestion = suggestion ++ [] := (List.append_nil _).symm
  have inQuotes : FitsNowhere pattern specifier.toList ('"' :: more ++ rest) :=
    h.nowhere_of_stops words (q := '"') (by decide) (by decide) hs.noSingle
  have mark : FitsNowhere pattern ['"'] (more ++ rest) := h.nowhere (by decide)
  exact (h.nowhere (by decide)).append (inQuotes.append (mark.append behind))

/-- A name between single quotes, in which no suggestion starts. -/
theorem named_nowhere {α : Type} {pattern : List Char → Option α} (h : Suggests pattern)
    {name : String} (hn : isAsciiIdentifier name = true) {more rest : List Char}
    (behind : FitsNowhere pattern more rest) :
    FitsNowhere pattern (name.toList ++ '\x27' :: more) rest := by
  have words : suggestion = "Did ".toList ++ "you mean to use 'import ".toList := rfl
  have inQuotes : FitsNowhere pattern name.toList ('\x27' :: more ++ rest) :=
    h.nowhere_of_stops words (by decide) (c := ' ') (by decide) (not_mem_of_ascii hn (by decide))
  have mark : FitsNowhere pattern ['\x27'] (more ++ rest) := h.nowhere (by decide)
  exact inQuotes.append (mark.append behind)

/-- What the compiler writes is read back. -/
theorem classify?_eq {c : Complaint} (h : c.WellFormed) :
    classify? c.code c.message = some c.fix := by
  cases c with
  | noDefault name specifier =>
    obtain ⟨hn, hs⟩ := h
    have found := search_reads (toList_noDefault name specifier)
      (quoted_nowhere suggestedNamed?_suggests hs (suggestedNamed?_suggests.nowhere (by decide)))
      (suggestedNamed?_reads hn hs _)
    have identifier := isIdentifier_iff.mpr (isIdentifier_of_ascii hn)
    simp [classify?, code, fix, found, identifier]
  | onlyDefault name specifier =>
    obtain ⟨hn, hs⟩ := h
    have nowhere (rest : List Char) : FitsNowhere suggestedDefault?
        ("' has no exported member '".toList ++ (name.toList ++ '\x27' :: ". ".toList)) rest :=
      (suggestedDefault?_suggests.nowhere (by decide)).append
        (named_nowhere suggestedDefault?_suggests hn
          (suggestedDefault?_suggests.nowhere (by decide)))
    have found := search_reads (toList_onlyDefault name specifier)
      (quoted_nowhere suggestedDefault?_suggests hs (nowhere _)) (suggestedDefault?_reads hn hs _)
    simp [classify?, code, fix, found]
  | unknownName name =>
    have found := search_here (toList_unknownName name) (missingName?_reads h _)
    simp [classify?, code, fix, found]
  | misspelledName name alike =>
    have found := search_here (toList_misspelledName name alike) (missingName?_reads h _)
    simp [classify?, code, fix, found]
  | unknownModule specifier =>
    have found := search_here (toList_unknownModule specifier) (missingModule?_reads h _)
    simp [classify?, code, fix, found]

end Complaint

/-- The complaints of the compiler have the fixes that they ask for, and no message whatsoever has a
fix of other names than the ones in it. -/
theorem classify_exact :
    (∀ c : Complaint, c.WellFormed → classify? c.code c.message = some c.fix) ∧
    ∀ code message fix, classify? code message = some fix → fix.ReadFrom code message :=
  ⟨fun _ h => Complaint.classify?_eq h, fun _ _ _ h => readFrom_of_classify? h⟩

/-- Two complaints about one shop. -/
theorem classify_shop :
    classify? 2613 (Complaint.noDefault "Shop" "@/app/shop").message =
      some (importByName "Shop" "@/app/shop") ∧
    (importDefault "Shop" "@/app/shop").ReadFrom 2614
      (Complaint.onlyDefault "Shop" "@/app/shop").message :=
  ⟨classify_exact.1 (.noDefault "Shop" "@/app/shop") ⟨by decide, by decide⟩,
    classify_exact.2 _ _ _ (classify_exact.1 (.onlyDefault "Shop" "@/app/shop")
      ⟨by decide, by decide⟩)⟩

end ModuleRepair.Fix
