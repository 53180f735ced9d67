import ModuleRepair.Proofs.Import.WellFormed
import ModuleRepair.Proofs.Script.Reading

/-!
# Reading import clauses

The clause of a rendered declaration is read piece by piece: the words of an entry, the entries
between braces, the default name with what follows it, and the specifier behind `from`.
-/
namespace ModuleRepair.Script

open ModuleRepair.Text Reader

theorem isSpace_space : isSpace ' ' = true := by decide

/-- The characters of words that each follow a blank. -/
def spaced (words : List (List Char)) : List Char :=
  words.flatMap (' ' :: ·)

/-- Where an entry between braces ends. -/
def endsEntry : List Char → Bool
  | ',' :: _ => true
  | ' ' :: '\x7d' :: _ => true
  | _ => false

/-- What may follow a word of an entry. -/
theorem endsWord_of_endsEntry {s : List Char} (h : endsEntry s = true) : endsWord s = true := by
  unfold endsEntry at h
  split at h
  · rfl
  · rfl
  · cases h

theorem endsWord_spaced (words : List (List Char)) {rest : List Char}
    (h : endsWord rest = true) : endsWord (spaced words ++ rest) = true := by
  cases words with
  | nil => exact h
  | cons w words => rfl

/-- No further word is read where the entry ends. -/
theorem entryWords_end (n offset : Nat) {rest : List Char} (h : endsEntry rest = true) :
    Reads (entryWords n) offset [] [] rest := by
  cases n with
  | zero => exact .pure ..
  | succ n =>
    refine .or_right ?_ (.pure ..)
    unfold endsEntry at h
    split at h
    · next more =>
      have first : Reads gap offset [] () (',' :: more) := .gap (gapLength_eq_zero rfl)
      exact .bind_right first (.bind _ (.or (.text rfl) (.text rfl)))
    · next more =>
      have first : Reads gap offset [' '] () ('\x7d' :: more) := .gap (gapLength_blank rfl rfl)
      change Refuses _ offset ([' '] ++ '\x7d' :: more)
      exact .bind_right first (.bind _ (.or (.text rfl) (.text rfl)))
    · cases h

theorem entryWords_reads {words : List (List Char)} (hw : ∀ w ∈ words, spellsWord w = true)
    {rest : List Char} (hr : endsEntry rest = true) {n : Nat} (hn : words.length ≤ n)
    (offset : Nat) :
    Reads (entryWords n) offset (spaced words) (words.map String.ofList) rest := by
  induction words generalizing n offset with
  | nil => exact entryWords_end n offset hr
  | cons w words ih =>
    obtain ⟨n, rfl⟩ : ∃ m, n = m + 1 := ⟨n - 1, by simp at hn; omega⟩
    have spelled := hw w List.mem_cons_self
    have ends : endsWord (spaced words ++ rest) = true :=
      endsWord_spaced words (endsWord_of_endsEntry hr)
    have more := fun offset => ih (fun w hw' => hw w (List.mem_cons_of_mem _ hw'))
      (n := n) (by simpa using hn) offset
    change Reads _ offset ([' '] ++ (w ++ spaced words)) _ rest
    refine .or_left _ (.bind (.gap ?_) (.bind (.or_left _ (.text ?_)) (.map (more _))))
    · rw [List.append_assoc]
      exact gapLength_blank isSpace_space (startsToken_of_spellsWord spelled _)
    · exact word?_append spelled ends

/-! ## Entries between braces -/

/-- The entries between braces, each by its words, with the closing brace. -/
def entriesText : List (List (List Char)) → List Char
  | [] => []
  | [entry] => spaced entry ++ [' ', '\x7d']
  | entry :: rest => spaced entry ++ ',' :: entriesText rest

/-- An entry of words that can be read back. -/
def IsEntry (words : List (List Char)) : Prop :=
  words ≠ [] ∧ words.length ≤ 4 ∧ ∀ w ∈ words, spellsWord w = true

/-- Braces do not close in front of an entry. -/
theorem entries_open {entry : List (List Char)} (h : IsEntry entry) (rest : List Char)
    (offset : Nat) :
    Refuses (do gap; symbol "\x7d"; return ([] : List (List String))) offset
      (spaced entry ++ rest) := by
  obtain ⟨hne, -, hw⟩ := h
  cases entry with
  | nil => exact absurd rfl hne
  | cons w words =>
    have spelled := hw w List.mem_cons_self
    change Refuses _ offset ([' '] ++ (w ++ spaced words ++ rest))
    rw [List.append_assoc]
    have first : Reads gap offset [' '] () (w ++ (spaced words ++ rest)) :=
      .gap (gapLength_blank isSpace_space (startsToken_of_spellsWord spelled _))
    exact .bind_right first (.bind _ (.skip (symbol?_of_word spelled rfl _)))

theorem entries_reads {list : List (List (List Char))} (hne : list ≠ [])
    (h : ∀ entry ∈ list, IsEntry entry) {n : Nat} (hn : list.length ≤ n) (offset : Nat)
    (rest : List Char) :
    Reads (entries n) offset (entriesText list) (list.map (·.map String.ofList)) rest := by
  induction list generalizing n offset with
  | nil => exact absurd rfl hne
  | cons entry list ih =>
    obtain ⟨n, rfl⟩ : ∃ m, n = m + 1 := ⟨n - 1, by simp at hn; omega⟩
    have entryHere := h entry List.mem_cons_self
    cases list with
    | nil =>
      have words : Reads (entryWords 4) offset (spaced entry) (entry.map String.ofList)
          ([' ', '\x7d'] ++ rest) := entryWords_reads entryHere.2.2 rfl entryHere.2.1 offset
      refine .or_right ?_ (words.bind (.bind (s := [' ']) (t := ['\x7d']) (.gap rfl)
        (.or_right (.bind _ (.skip rfl)) (.map (f := fun _ => [_]) (.skip rfl)))))
      rw [entriesText, List.append_assoc]
      exact entries_open entryHere _ offset
    | cons next list =>
      have words : Reads (entryWords 4) offset (spaced entry) (entry.map String.ofList)
          (',' :: entriesText (next :: list) ++ rest) :=
        entryWords_reads entryHere.2.2 rfl entryHere.2.1 offset
      have more := fun offset => ih (by simp) (fun e he => h e (List.mem_cons_of_mem _ he))
        (n := n) (by simpa using hn) offset
      refine .or_right ?_ (words.bind (.bind_nil (.gap rfl)
        (.or_left _ (.bind (s := [',']) (.skip rfl) (.map (more _))))))
      rw [entriesText, List.append_assoc]
      · exact entries_open entryHere _ offset
      · simp

/-- The words of a binding. -/
def bindingWords (b : NamedImport) : List (List Char) :=
  (if b.isType then ["type".toList] else []) ++ b.name.toList ::
    match b.renamed with
    | some a => ["as".toList, a.toList]
    | none => []

theorem isEntry_bindingWords {b : NamedImport} (h : b.Spelled) : IsEntry (bindingWords b) := by
  obtain ⟨name, renamed, isType⟩ := b
  refine ⟨by simp [bindingWords], ?_, ?_⟩
  · cases isType <;> cases renamed <;> simp [bindingWords]
  · have mark : spellsWord "type".toList = true := by decide
    have joint : spellsWord "as".toList = true := by decide
    have spelled := h.name
    intro w hw
    cases renamed with
    | none =>
      simp only [bindingWords, List.mem_append, List.mem_singleton] at hw
      rcases hw with hw | rfl
      · cases isType <;> simp_all
      · exact spelled
    | some a =>
      have localSpelled := (h.renamed a rfl).1
      simp only [bindingWords, List.mem_append, List.mem_cons, List.not_mem_nil, or_false] at hw
      rcases hw with hw | rfl | rfl | rfl
      · cases isType <;> simp_all
      · exact spelled
      · exact joint
      · exact localSpelled

theorem namedImport?_bindingWords {typed : Bool} {b : NamedImport}
    (h : typed = true ∨ b.isType = false) :
    namedImport? typed ((bindingWords b).map String.ofList) = some b := by
  obtain ⟨name, renamed, isType⟩ := b
  cases isType <;> cases renamed <;> simp_all [bindingWords, namedImport?]

theorem mapM_bindingWords {typed : Bool} {named : List NamedImport}
    (h : typed = true ∨ ∀ b ∈ named, b.isType = false) :
    ((named.map fun b => (bindingWords b).map String.ofList).mapM (namedImport? typed) :
      Option _) = some named := by
  induction named with
  | nil => rfl
  | cons b named ih =>
    have here : namedImport? typed ((bindingWords b).map String.ofList) = some b :=
      namedImport?_bindingWords (h.imp_right fun h => h b List.mem_cons_self)
    have rest := ih (h.imp_right fun h b hb => h b (List.mem_cons_of_mem _ hb))
    simp [here, rest]

/-! ## The clause -/

/-- The namespace or the braces of a declaration. -/
def bindingsText (d : Import) : List Char :=
  match d.namespaceName with
  | some name => ['*', ' ', 'a', 's', ' '] ++ name.toList
  | none => '\x7b' :: entriesText (d.named.map bindingWords)

/-- Whether a declaration has a namespace or braces. -/
def hasBindings (d : Import) : Bool :=
  d.namespaceName.isSome || !d.named.isEmpty

/-- The whole clause of a declaration. -/
def clauseText (d : Import) : List Char :=
  match d.defaultName with
  | some name => name.toList ++ if hasBindings d then [',', ' '] ++ bindingsText d else []
  | none => bindingsText d

theorem importedBindings_reads {d : Import} (h : d.Spelled) (hb : hasBindings d = true)
    {scope : Scope} (typed : scope.language.typed = true ∨ d.Untyped)
    (fuel : d.named.length ≤ scope.fuel) (offset : Nat) {rest : List Char}
    (hr : endsWord rest = true) :
    Reads (importedBindings scope) offset (bindingsText d) (d.namespaceName, d.named) rest := by
  cases hn : d.namespaceName with
  | some name =>
    have named : d.named = [] := h.clause.resolve_left (by simp [hn])
    have spelled := h.namespaceName name hn
    rw [bindingsText, hn, named]
    exact .or_left _ (.bind (s := ['*']) (.skip rfl) (.bind (s := [' ']) (.gap rfl)
      (.bind (s := ['a', 's']) (.skip (keyword?_append _ rfl)) (.bind (s := [' '])
        (.gap (gapLength_blank isSpace_space (startsToken_of_spellsWord spelled _)))
        (.map (f := fun name => (some name, [])) (.string (word?_append spelled hr)))))))
  | none =>
    have named : d.named ≠ [] := by simpa [hasBindings, hn] using hb
    have list : ∀ entry ∈ d.named.map bindingWords, IsEntry entry := by
      intro entry he
      obtain ⟨b, hb, rfl⟩ := List.mem_map.mp he
      exact isEntry_bindingWords (h.named b hb)
    have bindings := mapM_bindingWords (typed.imp_right (·.2))
    rw [bindingsText, hn]
    refine .or_right (.bind _ (.skip rfl)) ?_
    have opened : Reads (braced scope) offset ('\x7b' :: entriesText (d.named.map bindingWords))
        ((d.named.map bindingWords).map (·.map String.ofList)) rest :=
      .bind (s := ['\x7b']) (.skip rfl)
        (entries_reads (by simpa using named) list (by simpa using fuel) _ rest)
    rw [List.map_map] at opened
    exact opened.bind_end (.map (f := fun named => (none, named)) (.lift bindings ..))

theorem bindingsText_refused {name : List Char} (spelled : spellsWord name = true) (scope : Scope)
    (offset : Nat) (rest : List Char) :
    Refuses (do return (none, ← importedBindings scope) :
      Reader (Option String × Option String × List NamedImport)) offset (name ++ rest) :=
  .bind _ (.or (.bind _ (.skip (symbol?_of_word spelled rfl rest)))
    (.bind _ (.bind _ (.skip (symbol?_of_word spelled rfl rest)))))

theorem startsToken_bindingsText (d : Import) (rest : List Char) :
    startsToken (bindingsText d ++ rest) = true := by
  unfold bindingsText
  split <;> rfl

theorem importClause_reads {d : Import} (h : d.Spelled)
    (hc : d.defaultName.isSome = true ∨ hasBindings d = true) {scope : Scope}
    (typed : scope.language.typed = true ∨ d.Untyped) (fuel : d.named.length ≤ scope.fuel)
    (offset : Nat) (rest : List Char) :
    Reads (importClause scope) offset (clauseText d) (d.defaultName, d.namespaceName, d.named)
      (' ' :: 'f' :: rest) := by
  have ended : endsWord (' ' :: 'f' :: rest) = true := rfl
  have bindings := fun hb offset => importedBindings_reads h hb typed fuel offset ended
  cases hd : d.defaultName with
  | none =>
    rw [clauseText, hd]
    exact .or_left _ (.map (f := fun bindings => (none, bindings))
      (bindings (hc.resolve_left (by simp [hd])) offset))
  | some name =>
    have spelled := h.defaultName name hd
    rw [clauseText, hd]
    refine .or_right (by rw [List.append_assoc]; exact bindingsText_refused spelled ..) ?_
    cases hb : hasBindings d with
    | true =>
      exact .bind (.string (word?_append spelled rfl)) (.or_left _ (.bind_nil (.gap rfl)
        (.bind (s := [',']) (.skip rfl) (.bind (s := [' '])
          (.gap (gapLength_blank isSpace_space (startsToken_bindingsText d _)))
          (.map (f := fun bindings => (some name, bindings)) (bindings hb _))))))
    | false =>
      simp only [hasBindings, Bool.or_eq_false_iff, Option.isSome_eq_false_iff,
        Option.isNone_iff_eq_none, Bool.not_eq_false', List.isEmpty_iff] at hb
      rw [hb.1, hb.2]
      refine .bind (.string (word?_append spelled rfl)) (.or_right ?_ (.pure ..))
      change Refuses _ _ ([' '] ++ 'f' :: rest)
      exact .bind_right (s := [' ']) (a := ()) (.gap rfl) (.bind _ (.skip rfl))

end ModuleRepair.Script
