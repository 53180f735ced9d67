import ModuleRepair.Proofs.Diagnostic.Report
import ModuleRepair.Proofs.Distinct

/-!
# Printed diagnostics

A report that is printed from diagnostics is read back, each diagnostic with its own message and under
its own file (`byFile_printed`). What a message loses are the colours of its further lines, and
whatever follows the first blank one of them.
-/
namespace ModuleRepair.Report

open ModuleRepair.Text

/-- A message of several lines. -/
def messageOf (lines : List (List Char)) : String :=
  String.ofList (join ['\n'] lines)

theorem messageOf_singleton (line : List Char) : messageOf [line] = String.ofList line := by
  rw [messageOf, join_singleton]

theorem messageOf_append {lines : List (List Char)} (some : lines ≠ []) (line : List Char) :
    messageOf (lines ++ [line]) = messageOf lines ++ "\n" ++ String.ofList line := by
  rw [messageOf, join_append_singleton _ _ some, ← String.toList_inj]
  simp [messageOf]

/-- A diagnostic as the compiler prints it, with the lines that follow it. -/
structure Entry where
  file : List Char
  line : Nat
  column : Nat
  category : String
  code : Nat
  message : List Char
  /-- Further lines of the message, without their indentation. -/
  continuations : List (List Char)
  /-- Lines behind the message. -/
  noise : List (List Char)

namespace Entry

/-- What follows the file on the first line. -/
def tail (e : Entry) : List Char :=
  placeText (toString e.line).toList (toString e.column).toList ++
    (e.category.toList ++ " TS".toList ++
      ((toString e.code).toList ++ (": ".toList ++ e.message)))

def indented (e : Entry) : List (List Char) :=
  e.continuations.map ("  ".toList ++ ·)

def lines (e : Entry) : List (List Char) :=
  (e.file ++ e.tail) :: (e.indented ++ e.noise)

/-- The further lines of the message that are read: up to the first blank one, trimmed and without
colours. -/
def details (e : Entry) : List (List Char) :=
  (e.continuations.map fun c => trim (dropColours 0 c)).takeWhile (· ≠ [])

/-- The file of a printed entry. Relative paths are taken from a directory. -/
def path (directory : String) (e : Entry) : String :=
  Path.absolute (Path.join directory (String.ofList e.file))

def diagnostic (directory : String) (e : Entry) : Diagnostic where
  code := e.code
  message := messageOf (e.message :: e.details)
  path := some (e.path directory)
  line := e.line
  column := e.column
  category := e.category

/-- A text that ends no line, and that has neither colours nor white space at its ends. -/
structure OneLine (s : List Char) : Prop where
  noBreak : ∀ c ∈ s, isLineBreak c = false
  colourless : Colourless s
  trimmed : trim s = s

/-- A line that is no diagnostic when its colours are dropped. -/
structure Formless (s : List Char) : Prop where
  noBreak : ∀ c ∈ s, isLineBreak c = false
  plain : ¬IsPlain (dropColours 0 s)
  pretty : ¬IsPretty (dropColours 0 s)

structure WellFormed (e : Entry) : Prop where
  file : e.file ≠ [] ∧ OneLine e.file
  /-- No place is in the path itself. -/
  place : ∀ line column, Digits line → Digits column → ¬placeText line column <:+: e.file
  category : e.category ∈ categories
  message : OneLine e.message
  indented : ∀ l ∈ e.indented, Formless l
  noise : ∀ l ∈ e.noise, Formless l ∧ ¬"  ".toList <+: dropColours 0 l

end Entry

/-! ## Ordinary entries -/

/-- A text without line ends and escape characters, and without white space at its ends. -/
def isOrdinary (s : List Char) : Bool :=
  s.all (!isLineBreak ·) && '\x1b' ∉ s && trim s = s

theorem oneLine_of_ordinary {s : List Char} (h : isOrdinary s = true) : Entry.OneLine s := by
  simp only [isOrdinary, Bool.and_eq_true, List.all_eq_true, Bool.not_eq_true',
    decide_eq_true_eq] at h
  obtain ⟨⟨noBreak, noEscape⟩, trimmed⟩ := h
  exact ⟨noBreak, fun _ ht => absurd (ht.subset List.mem_cons_self) noEscape, trimmed⟩

namespace Entry

/-- An entry without a comma in its file and without a colon behind its first line. -/
def isOrdinary (e : Entry) : Bool :=
  e.file ≠ [] && Report.isOrdinary e.file && ',' ∉ e.file && e.category ∈ categories &&
    Report.isOrdinary e.message &&
    (e.indented ++ e.noise).all (fun l => l.all (!isLineBreak ·) && ':' ∉ dropColours 0 l) &&
    e.noise.all fun l => !"  ".toList.isPrefixOf (dropColours 0 l)

theorem formless_of_noColon {s : List Char} (noBreak : ∀ c ∈ s, isLineBreak c = false)
    (noColon : ':' ∉ dropColours 0 s) : Formless s where
  noBreak := noBreak
  plain := by
    rintro ⟨file, line, column, rest, -, -, -, -, whole⟩
    simp [whole, placeText] at noColon
  pretty := by
    rintro ⟨file, line, column, rest, -, -, -, -, whole⟩
    simp [whole] at noColon

theorem wellFormed_of_ordinary {e : Entry} (h : e.isOrdinary = true) : e.WellFormed := by
  simp only [isOrdinary, Bool.and_eq_true, decide_eq_true_eq, List.all_eq_true,
    Bool.not_eq_true'] at h
  obtain ⟨⟨⟨⟨⟨⟨some, file⟩, noComma⟩, listed⟩, message⟩, lines⟩, noise⟩ := h
  have formless : ∀ l ∈ e.indented ++ e.noise, Formless l := fun l hl =>
    formless_of_noColon (lines l hl).1 (lines l hl).2
  refine ⟨⟨some, oneLine_of_ordinary file⟩, ?_, listed, oneLine_of_ordinary message,
    fun l hl => formless l (List.mem_append_left _ hl), fun l hl => ?_⟩
  · exact fun line column _ _ there => noComma (there.subset (by simp [placeText]))
  · refine ⟨formless l (List.mem_append_right _ hl), fun start => ?_⟩
    rw [← List.isPrefixOf_iff_prefix, noise l hl] at start
    cases start

end Entry

/-! ## The first line -/

theorem find_category {category : String} (listed : category ∈ categories) (rest : List Char) :
    (categories.find? fun c => (c.toList ++ " TS".toList).isPrefixOf
      (category.toList ++ " TS".toList ++ rest)) = some category := by
  simp only [categories, List.mem_cons, List.not_mem_nil, or_false] at listed
  rcases listed with rfl | rfl | rfl <;> rfl

theorem body?_reads {category : String} (listed : category ∈ categories) (line column code : Nat)
    {message : List Char} (trimmed : trim message = message) :
    body? line column (category.toList ++ " TS".toList ++
      ((toString code).toList ++ (": ".toList ++ message))) =
        some ⟨line, column, category, code, message⟩ := by
  have number : number? ((toString code).toList ++ (": ".toList ++ message)) =
      some (code, ": ".toList ++ message) := number?_reads code (c := ':') (by decide) _
  simp only [body?, Option.bind_eq_bind, find_category listed, Option.bind_some,
    afterStart?_append, number, trimmed]
  rfl

theorem plainBody?_reads (line column : Nat) (rest : List Char) :
    plainBody? (placeText (toString line).toList (toString column).toList ++ rest) =
      body? line column rest := by
  have opening : afterStart? "(".toList
      (placeText (toString line).toList (toString column).toList ++ rest) =
        some ((toString line).toList ++ ',' :: ((toString column).toList ++
          ("): ".toList ++ rest))) :=
    afterStart?_eq_some_iff.mpr (by simp [placeText])
  have lines := number?_reads line (c := ',') (by decide)
    ((toString column).toList ++ ("): ".toList ++ rest))
  have comma (s : List Char) : afterStart? ",".toList (',' :: s) = some s :=
    afterStart?_append ",".toList s
  have columns : number? ((toString column).toList ++ ("): ".toList ++ rest)) =
      some (column, "): ".toList ++ rest) := number?_reads column (c := ')') (by decide) _
  simp only [plainBody?, Option.bind_eq_bind, opening, Option.bind_some, lines, comma, columns,
    afterStart?_append]

namespace Entry

variable {e : Entry}

/-- No place starts in the path, not even one that ends behind it. -/
theorem WellFormed.nowhere (h : e.WellFormed) {file : List Char} (within : file <:+ e.file) :
    FitsNowhere plainBody? file e.tail := by
  intro t ht some
  refine Option.eq_none_iff_forall_ne_some.mpr fun body found => ?_
  obtain ⟨line, column, after, isLine, isColumn, -, text⟩ := place_of_plainBody? found
  obtain ⟨more, bracket⟩ : ∃ more, e.tail = '(' :: more := ⟨_, rfl⟩
  obtain ⟨c, t, rfl⟩ := List.exists_cons_of_ne_nil some
  obtain ⟨rfl, behind⟩ := List.cons.inj text
  rw [bracket] at behind
  have noBracket : '(' ∉ line ++ ',' :: (column ++ "): ".toList) := by
    have notDigit : isDecimal '(' = false := by decide
    have outside : ∀ {s}, Digits s → '(' ∉ s := fun digits there => by
      rw [digits.2 _ there] at notDigit
      cases notDigit
    simp [outside isLine, outside isColumn]
  have inFile : line ++ ',' :: (column ++ "): ".toList) <+: t :=
    prefix_of_stops noBracket ⟨_, behind.symm⟩
  have whole : placeText line column <+: '(' :: t := (List.prefix_cons_inj '(').mpr inFile
  exact h.place line column isLine isColumn
    (whole.isInfix.trans (ht.isInfix.trans within.isInfix))

/-- The first line of an entry is read back. -/
theorem WellFormed.diagnostic? (h : e.WellFormed) (directory : String) :
    diagnostic? directory (e.file ++ e.tail) =
      some { e.diagnostic directory with message := String.ofList e.message } := by
  obtain ⟨some', -, -, trimmed⟩ := h.file
  obtain ⟨c, file, same⟩ := List.exists_cons_of_ne_nil some'
  have here : plainBody? e.tail = some ⟨e.line, e.column, e.category, e.code, e.message⟩ := by
    rw [tail, plainBody?_reads, body?_reads h.category _ _ _ h.message.trimmed]
  have nowhere : FitsNowhere plainBody? file e.tail :=
    h.nowhere (by rw [same]; exact List.suffix_cons c file)
  have cut : cutAt? plainBody? (e.file ++ e.tail) =
      some (e.file, ⟨e.line, e.column, e.category, e.code, e.message⟩) := by
    rw [same, List.cons_append, cutAt?, findFirst?_append nowhere, findFirst?_here here]
    simp
  rw [Report.diagnostic?, cut, Option.some_or, Option.map_some]
  dsimp only
  rw [trimmed]
  rfl

end Entry

/-! ## The lines behind it -/

theorem continuation?_indented (s : List Char) : continuation? ("  ".toList ++ s) =
    if trim s = [] then none else some (String.ofList (trim s)) := by
  have spaces : ∀ c ∈ "  ".toList, isBlank c = true := List.all_eq_true.mp rfl
  have blank : isBlankText ("  ".toList ++ s) = true ↔ trim s = [] := by
    rw [isBlankText, List.all_eq_true, List.forall_mem_append, trim_eq_nil_iff]
    exact and_iff_right spaces
  have start : "  ".toList.isPrefixOf ("  ".toList ++ s) = true :=
    List.isPrefixOf_iff_prefix.mpr (List.prefix_append _ s)
  rw [continuation?, start, trim_blank_append spaces]
  by_cases empty : trim s = []
  · rw [if_pos empty, blank.mpr empty]
    rfl
  · have shown : isBlankText ("  ".toList ++ s) = false :=
      Bool.eq_false_iff.mpr fun all => empty (blank.mp all)
    rw [if_neg empty, shown]
    rfl

section

variable {directory : String} {ds : List Diagnostic} {lines : List (List Char)}

theorem read_closed (formless : ∀ l ∈ lines, diagnostic? directory l = none) :
    lines.foldl (readLine directory) ⟨ds, false⟩ = ⟨ds, false⟩ := by
  induction lines with
  | nil => rfl
  | cons l lines ih =>
    obtain ⟨here, later⟩ := List.forall_mem_cons.mp formless
    have step : readLine directory ⟨ds, false⟩ l = ⟨ds, false⟩ := by
      rw [readLine, here]
      cases ds <;> rfl
    rw [List.foldl_cons, step, ih later]

theorem read_noise (formless : ∀ l ∈ lines, diagnostic? directory l = none)
    (outside : ∀ l ∈ lines, continuation? l = none) (r : Reading) :
    (lines.foldl (readLine directory) r).diagnostics = r.diagnostics := by
  cases lines with
  | nil => rfl
  | cons l lines =>
    obtain ⟨here, later⟩ := List.forall_mem_cons.mp formless
    have step : readLine directory r l = ⟨r.diagnostics, false⟩ := by
      rw [readLine, here, outside l List.mem_cons_self]
      cases r.diagnostics <;> cases r.isOpen <;> rfl
    rw [List.foldl_cons, step, read_closed later]

/-- A message takes in the lines up to the first blank one. -/
theorem read_continuations {texts : List (List Char)}
    (formless : ∀ t ∈ texts, diagnostic? directory ("  ".toList ++ t) = none) {d : Diagnostic}
    {said : List (List Char)} (some' : said ≠ []) (message : d.message = messageOf said) :
    ((texts.map ("  ".toList ++ ·)).foldl (readLine directory) ⟨d :: ds, true⟩).diagnostics =
      { d with message := messageOf (said ++ (texts.map trim).takeWhile (· ≠ [])) } :: ds := by
  induction texts generalizing d said with
  | nil => simp [← message]
  | cons t texts ih =>
    obtain ⟨here, later⟩ := List.forall_mem_cons.mp formless
    rw [List.map_cons, List.foldl_cons, readLine, here, List.map_cons]
    dsimp only
    rw [continuation?_indented]
    by_cases empty : trim t = []
    · have closed : ∀ l ∈ texts.map ("  ".toList ++ ·), diagnostic? directory l = none := by
        simpa using later
      rw [if_pos empty, List.takeWhile_cons_of_neg (by simpa using empty)]
      dsimp only
      rw [read_closed closed, List.append_nil, ← message]
    · have extended := messageOf_append some' (trim t)
      rw [if_neg empty, List.takeWhile_cons_of_pos (by simpa using empty)]
      dsimp only
      have some'' : said ++ [trim t] ≠ [] := by simp
      rw [ih later some'' (by rw [extended, message])]
      simp

end

/-! ## All lines -/

namespace Entry

variable {e : Entry}

/-- Between the file and the message there are printable characters of ASCII. -/
theorem tail_front (listed : e.category ∈ categories) :
    ∃ front, e.tail = '(' :: front ++ e.message ∧
      ∀ c ∈ '(' :: front, 0x20 ≤ c.toNat ∧ c.toNat < 0x7f := by
  have ofDigits (n : Nat) : ∀ c ∈ (toString n).toList, 0x20 ≤ c.toNat ∧ c.toNat < 0x7f := by
    intro c hc
    have digit : 48 ≤ c.toNat ∧ c.toNat ≤ 57 :=
      Char.isDigit_iff_toNat.mp (isDigit_of_mem_toString hc)
    omega
  have ofMarks {s : List Char}
      (printable : s.all (fun c => 0x20 ≤ c.toNat && c.toNat < 0x7f) = true) :
      ∀ c ∈ s, 0x20 ≤ c.toNat ∧ c.toNat < 0x7f := by
    simpa [List.all_eq_true] using printable
  have ofCategory : ∀ c ∈ e.category.toList, 0x20 ≤ c.toNat ∧ c.toNat < 0x7f := by
    simp only [categories, List.mem_cons, List.not_mem_nil, or_false] at listed
    rcases listed with same | same | same <;> rw [same] <;> exact ofMarks rfl
  refine ⟨(toString e.line).toList ++ ",".toList ++ (toString e.column).toList ++ "): ".toList ++
    e.category.toList ++ " TS".toList ++ (toString e.code).toList ++ ": ".toList, ?_, ?_⟩
  · simp [tail, placeText]
  · simp only [List.forall_mem_cons, List.forall_mem_append]
    exact ⟨by decide, ⟨⟨⟨⟨⟨⟨⟨ofDigits _, ofMarks rfl⟩, ofDigits _⟩, ofMarks rfl⟩, ofCategory⟩,
      ofMarks rfl⟩, ofDigits _⟩, ofMarks rfl⟩⟩

theorem WellFormed.firstLine_noBreak (h : e.WellFormed) :
    ∀ c ∈ e.file ++ e.tail, isLineBreak c = false := by
  obtain ⟨front, same, printable⟩ := tail_front h.category
  rw [same]
  simp only [List.forall_mem_append]
  refine ⟨h.file.2.noBreak, fun c hc => ?_, h.message.noBreak⟩
  have bounds := printable c hc
  simp [isLineBreak]
  omega

theorem WellFormed.firstLine_colourless (h : e.WellFormed) :
    dropColours 0 (e.file ++ e.tail) = e.file ++ e.tail := by
  obtain ⟨front, same, printable⟩ := tail_front h.category
  have noEscape : '\x1b' ∉ '(' :: front := fun there => by
    have bounds := (printable _ there).1
    revert bounds
    decide
  rw [same, List.cons_append, dropColours_append h.file.2.colourless (by decide),
    ← List.cons_append, dropColours_plain noEscape, dropColours_of_colourless h.message.colourless]

theorem dropColours_indented (s : List Char) :
    dropColours 0 ("  ".toList ++ s) = "  ".toList ++ dropColours 0 s :=
  dropColours_plain (by decide) s

/-- The lines of an entry are read as its diagnostic, whatever was read before. -/
theorem WellFormed.read (h : e.WellFormed) (directory : String) (r : Reading) :
    ((e.lines.map (dropColours 0)).foldl (readLine directory) r).diagnostics =
      e.diagnostic directory :: r.diagnostics := by
  have first : readLine directory r (e.file ++ e.tail) =
      ⟨{ e.diagnostic directory with message := String.ofList e.message } :: r.diagnostics, true⟩ := by
    rw [readLine, h.diagnostic? directory]
  have indented : e.indented.map (dropColours 0) =
      (e.continuations.map (dropColours 0)).map ("  ".toList ++ ·) := by
    rw [Entry.indented, List.map_map, List.map_map]
    exact List.map_congr_left fun s _ => dropColours_indented s
  have formless : ∀ t ∈ e.continuations.map (dropColours 0),
      Report.diagnostic? directory ("  ".toList ++ t) = none := by
    intro t ht
    obtain ⟨s, hs, rfl⟩ := List.mem_map.mp ht
    have line := h.indented ("  ".toList ++ s) (List.mem_map_of_mem hs)
    rw [← dropColours_indented]
    exact diagnostic?_eq_none line.plain line.pretty
  have noise : ∀ l ∈ e.noise.map (dropColours 0), Report.diagnostic? directory l = none := by
    intro l hl
    obtain ⟨s, hs, rfl⟩ := List.mem_map.mp hl
    exact diagnostic?_eq_none (h.noise s hs).1.plain (h.noise s hs).1.pretty
  have outside : ∀ l ∈ e.noise.map (dropColours 0), continuation? l = none := by
    intro l hl
    obtain ⟨s, hs, rfl⟩ := List.mem_map.mp hl
    have start : "  ".toList.isPrefixOf (dropColours 0 s) = false :=
      Bool.eq_false_iff.mpr fun there => (h.noise s hs).2 (List.isPrefixOf_iff_prefix.mp there)
    rw [continuation?, start]
    rfl
  have message := (messageOf_singleton e.message).symm
  rw [lines, List.map_cons, List.map_append, h.firstLine_colourless, List.foldl_cons, first,
    List.foldl_append, read_noise noise outside, indented,
    read_continuations formless (List.cons_ne_nil e.message []) message, List.map_map]
  rfl

end Entry

/-- The printed entries, with a line feed behind each line. -/
def printed (entries : List Entry) : String :=
  String.ofList ((entries.flatMap Entry.lines).flatMap (· ++ ['\n']))

theorem reportLines_append {line : List Char} (h : ∀ c ∈ line, isLineBreak c = false)
    (rest current : List Char) (done : List (List Char)) :
    reportLines.go (line ++ '\n' :: rest) current done =
      reportLines.go rest [] ((current.reverse ++ line) :: done) := by
  induction line generalizing current with
  | nil => simp [reportLines.go, isLineBreak]
  | cons c line ih =>
    obtain ⟨here, later⟩ := List.forall_mem_cons.mp h
    have noReturn : c ≠ '\r' := by
      rintro rfl
      cases here
    rw [List.cons_append, reportLines.go, here, if_neg Bool.false_ne_true, ih later]
    · simp
    · exact fun _ same => absurd same noReturn

theorem reportLines_flatMap {lines : List (List Char)}
    (h : ∀ l ∈ lines, ∀ c ∈ l, isLineBreak c = false) :
    reportLines (lines.flatMap (· ++ ['\n'])) = lines := by
  have all (done : List (List Char)) :
      reportLines.go (lines.flatMap (· ++ ['\n'])) [] done = done.reverse ++ lines := by
    induction lines generalizing done with
    | nil => simp [reportLines.go]
    | cons l lines ih =>
      obtain ⟨here, later⟩ := List.forall_mem_cons.mp h
      rw [List.flatMap_cons, List.append_assoc, List.singleton_append, reportLines_append here,
        ih later]
      simp
  exact all []

theorem Entry.WellFormed.noBreak {e : Entry} (h : e.WellFormed) :
    ∀ l ∈ e.lines, ∀ c ∈ l, isLineBreak c = false := by
  refine List.forall_mem_cons.mpr ⟨h.firstLine_noBreak, List.forall_mem_append.mpr ⟨?_, ?_⟩⟩
  · exact fun l hl => (h.indented l hl).noBreak
  · exact fun l hl => (h.noise l hl).1.noBreak

theorem diagnostics_printed {entries : List Entry} (h : ∀ e ∈ entries, e.WellFormed)
    (directory : String) :
    diagnostics (printed entries) directory = entries.map (Entry.diagnostic directory) := by
  have noBreak : ∀ l ∈ entries.flatMap Entry.lines, ∀ c ∈ l, isLineBreak c = false := by
    intro l hl
    obtain ⟨e, he, inEntry⟩ := List.mem_flatMap.mp hl
    exact (h e he).noBreak l inEntry
  have read (r : Reading) : (((entries.flatMap Entry.lines).map (dropColours 0)).foldl
      (readLine directory) r).diagnostics =
        (entries.map (Entry.diagnostic directory)).reverse ++ r.diagnostics := by
    induction entries generalizing r with
    | nil => rfl
    | cons e entries ih =>
      obtain ⟨here, later⟩ := List.forall_mem_cons.mp h
      rw [List.flatMap_cons, List.map_append, List.foldl_append,
        ih later fun l hl => noBreak l (by simp [List.flatMap_cons, hl]), here.read]
      simp
  rw [diagnostics, printed, String.toList_ofList, reportLines_flatMap noBreak, read]
  simp

/-! ## Files -/

/-- Diagnostics under their keys, in the order in which these come first. -/
def grouped (key : Diagnostic → String) (ds : List Diagnostic) : DiagnosticsByFile :=
  ((ds.map key).eraseDups).map fun path => (path, ds.filter (key · = path))

theorem lookup_isSome_iff {α : Type} (f : String → α) (paths : List String) (path : String) :
    ((paths.map fun p => (p, f p)).lookup path).isSome = true ↔ path ∈ paths := by
  induction paths with
  | nil => simp
  | cons p paths ih =>
    by_cases same : path = p
    · simp [same]
    · have other : (path == p) = false := beq_false_of_ne same
      simp only [List.map_cons, List.lookup_cons, other, List.mem_cons, same, false_or]
      exact ih

/-- One more diagnostic comes last under its path. -/
theorem grouped_concat (key : Diagnostic → String) (ds : List Diagnostic) (d : Diagnostic) :
    grouped key (ds ++ [d]) = DiagnosticsByFile.add (grouped key ds) (key d) [d] := by
  have others {path : String} (other : path ≠ key d) :
      (ds ++ [d]).filter (key · = path) = ds.filter (key · = path) := by
    simp [Ne.symm other]
  have its : (ds ++ [d]).filter (key · = key d) = ds.filter (key · = key d) ++ [d] := by simp
  have there := lookup_isSome_iff (fun path => ds.filter (key · = path)) (ds.map key).eraseDups
    (key d)
  rw [List.mem_eraseDups] at there
  unfold DiagnosticsByFile.add
  by_cases known : key d ∈ ds.map key
  · rw [grouped, grouped, if_pos (there.mpr known), List.map_append, List.map_singleton,
      eraseDups_concat_of_mem known, List.map_map]
    refine List.map_congr_left fun path _ => ?_
    by_cases same : path = key d
    · simp [same]
    · simp [same, others same]
  · have none : ds.filter (key · = key d) = [] := by
      simpa [List.filter_eq_nil_iff] using known
    rw [grouped, grouped, if_neg fun found => known (there.mp found), List.map_append,
      List.map_singleton, eraseDups_concat_of_not_mem known, List.map_append, List.map_singleton,
      its, none, List.nil_append]
    congr 1
    refine List.map_congr_left fun path hp => ?_
    rw [others fun same => known (same ▸ List.mem_eraseDups.mp hp)]

theorem byFile_eq (report directory : String) :
    byFile report directory = grouped (·.path.getD "") (diagnostics report directory) := by
  have all (front ds : List Diagnostic) : ds.foldl
      (fun all d => DiagnosticsByFile.add all (d.path.getD "") [d]) (grouped (·.path.getD "") front) =
        grouped (·.path.getD "") (front ++ ds) := by
    induction ds generalizing front with
    | nil => simp
    | cons d ds ih => rw [List.foldl_cons, ← grouped_concat, ih, List.append_assoc]; rfl
  exact all [] _

/-- Printed entries are read back, each one once, under its own file and with its own message, and
the files in the order in which they come first. -/
theorem byFile_printed {entries : List Entry} (h : ∀ e ∈ entries, e.WellFormed)
    (directory : String) : byFile (printed entries) directory =
      ((entries.map (Entry.path directory)).eraseDups).map fun path =>
        (path, (entries.filter (·.path directory = path)).map (Entry.diagnostic directory)) := by
  have path (e : Entry) : (e.diagnostic directory).path.getD "" = e.path directory := by
    rw [Entry.diagnostic, Option.getD_some]
  rw [byFile_eq, diagnostics_printed h, grouped, List.map_map]
  simp only [Function.comp_def, path, List.filter_map]

/-- Two complaints about one file, and one about another. -/
def shopEntries : List Entry := [
  { file := "src/(shop)/page.tsx".toList, line := 3, column := 8, category := "error", code := 2613
    message := "Module '\"@/shop\"' has no default export.".toList
    continuations := ["Did you mean to use a name?".toList]
    noise := ["Found 3 errors.".toList] },
  { file := "src/cart.ts".toList, line := 12, column := 1, category := "error", code := 2304
    message := "Cannot find name 'Cart'.".toList, continuations := [], noise := [] },
  { file := "src/(shop)/page.tsx".toList, line := 7, column := 10, category := "warning", code := 1
    message := [], continuations := [], noise := [[]] }]

theorem byFile_shopEntries :
    (∀ e ∈ shopEntries, e.WellFormed) ∧ byFile (printed shopEntries) "/app" = [
      ("/app/src/(shop)/page.tsx", [
        { code := 2613
          message := "Module '\"@/shop\"' has no default export.\nDid you mean to use a name?"
          path := some "/app/src/(shop)/page.tsx", line := 3, column := 8 },
        { code := 1, message := "", path := some "/app/src/(shop)/page.tsx", line := 7, column := 10
          category := "warning" }]),
      ("/app/src/cart.ts", [
        { code := 2304, message := "Cannot find name 'Cart'.", path := some "/app/src/cart.ts"
          line := 12, column := 1 }])] := by
  have ordinary : ∀ e ∈ shopEntries, e.isOrdinary = true := by decide +kernel
  have wf : ∀ e ∈ shopEntries, e.WellFormed := fun e he =>
    Entry.wellFormed_of_ordinary (ordinary e he)
  refine ⟨wf, (byFile_printed wf "/app").trans ?_⟩
  decide +kernel

/-- A message that loses its colours, and the lines behind a blank one. -/
def blankDetail : Entry where
  file := "a.ts".toList
  line := 1
  column := 2
  category := "error"
  code := 1
  message := "m".toList
  continuations := ["\x1b[1mbold\x1b[0m".toList, [], "more".toList]
  noise := []

theorem blankDetail_cut :
    blankDetail.WellFormed ∧
    printed [blankDetail] =
      "a.ts(1,2): error TS1: m\n  \x1b[1mbold\x1b[0m\n  \n  more\n" ∧
    messageOf (blankDetail.message :: blankDetail.continuations.map trim) =
      "m\n\x1b[1mbold\x1b[0m\n\nmore" ∧
    byFile (printed [blankDetail]) "/app" = [("/app/a.ts", [
      { code := 1, message := "m\nbold", path := some "/app/a.ts", line := 1, column := 2 }])] := by
  refine ⟨Entry.wellFormed_of_ordinary (by decide +kernel), ?_, ?_, ?_⟩
  all_goals decide +kernel

end ModuleRepair.Report
