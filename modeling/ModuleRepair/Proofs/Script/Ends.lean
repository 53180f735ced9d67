import ModuleRepair.Proofs.Script.Gaps
import ModuleRepair.Proofs.Script.Heights

/-!
# Where statements end

On the line on which a statement ends, something of the statement can be seen
(`statementHere_ends`): it ends with a token, or with a comment that belongs to it, and never with
the blanks behind.
-/
namespace ModuleRepair.Script

open ModuleRepair.Text

/-- The characters that end a line of a script. -/
def lineBreaks : List Char := ['\r', '\n']

/-- A text that ends with a piece of a line on which something can be seen. The argument says what
ends a line. -/
def Shown (breaks s : List Char) : Prop :=
  ∃ before line, s = before ++ line ∧ (∀ c ∈ line, c ∉ breaks) ∧ ∃ c ∈ line, isAsciiBlank c = false

namespace Shown

variable {breaks s t : List Char}

theorem append_left (s : List Char) (h : Shown breaks t) : Shown breaks (s ++ t) := by
  obtain ⟨before, line, rfl, unbroken, seen⟩ := h
  exact ⟨s ++ before, line, (List.append_assoc ..).symm, unbroken, seen⟩

/-- More of the same line. -/
theorem append_line (h : Shown breaks s) (unbroken : ∀ c ∈ t, c ∉ breaks) :
    Shown breaks (s ++ t) := by
  obtain ⟨before, line, rfl, unbroken', c, there, seen⟩ := h
  exact ⟨before, line ++ t, List.append_assoc .., List.forall_mem_append.mpr ⟨unbroken', unbroken⟩,
    c, List.mem_append_left t there, seen⟩

/-- With fewer line breaks the lines are longer. -/
theorem mono {fewer : List Char} (subset : fewer ⊆ breaks) (h : Shown breaks s) :
    Shown fewer s := by
  obtain ⟨before, line, split, unbroken, seen⟩ := h
  exact ⟨before, line, split, fun c there gone => unbroken c there (subset gone), seen⟩

/-- Blanks at the end of the text are on the line on which something can be seen. -/
theorem of_append_blank (h : Shown breaks (s ++ t)) (blank : ∀ c ∈ t, isAsciiBlank c = true) :
    (∀ c ∈ t, c ∉ breaks) ∧ ∃ c, s.getLast? = some c ∧ c ∉ breaks := by
  obtain ⟨before, line, same, unbroken, c, there, seen⟩ := h
  have shown : c ∉ t := fun gone => by
    rw [blank c gone] at seen
    cases seen
  rcases List.append_eq_append_iff.mp same with ⟨more, -, rfl⟩ | ⟨more, rfl, rfl⟩
  · exact absurd (List.mem_append_right more there) shown
  · have here : c ∈ more := (List.mem_append.mp there).resolve_right shown
    have some := List.ne_nil_of_mem here
    obtain ⟨unbroken, unbroken'⟩ := List.forall_mem_append.mp unbroken
    refine ⟨unbroken', more.getLast some, ?_, unbroken _ (List.getLast_mem some)⟩
    simp [List.getLast?_append, List.getLast?_eq_some_getLast some]

theorem ne_nil (h : Shown breaks s) : s ≠ [] := by
  obtain ⟨before, line, rfl, -, c, there, -⟩ := h
  exact List.append_ne_nil_of_right_ne_nil before (List.ne_nil_of_mem there)

/-- A text that ends on a line does not end with a line break. -/
theorem getLast?_ne {c : Char} (h : Shown breaks s) (stops : c ∈ breaks) :
    s.getLast? ≠ some c := by
  rw [← List.append_nil s] at h
  obtain ⟨-, x, last, unbroken⟩ := h.of_append_blank nofun
  rw [last]
  exact fun same => unbroken (Option.some.inj same ▸ stops)

theorem of_endsVisibly (h : endsVisibly s = true) : Shown lineBreaks s := by
  have some := ne_nil_of_endsVisibly h
  have seen : isAsciiBlank (s.getLast some) = false := by
    simpa [endsVisibly, List.getLast?_eq_some_getLast some] using h
  have unbroken : s.getLast some ∉ lineBreaks := fun gone => by
    have blank : ∀ c ∈ lineBreaks, isAsciiBlank c = true :=
      List.all_eq_true.mp (by decide)
    rw [blank _ gone] at seen
    cases seen
  exact ⟨s.dropLast, [s.getLast some], (List.dropLast_concat_getLast some).symm,
    by simpa using unbroken, _, List.mem_singleton_self _, seen⟩

end Shown

/-- A text that ends with something that can be seen, or that may be and is empty. -/
def Closed (breaks : List Char) (must : Bool) (s : List Char) : Prop :=
  Shown breaks s ∨ must = false ∧ s = []

namespace Closed

variable {breaks s t : List Char} {must : Bool}

theorem shown (h : Closed breaks true s) : Shown breaks s :=
  h.resolve_right nofun

theorem append_left (s : List Char) (h : Closed breaks true t) : Closed breaks must (s ++ t) :=
  h.elim (fun shown => .inl (shown.append_left s)) nofun

theorem append (first : Closed breaks must s) (second : Closed breaks false t) :
    Closed breaks must (s ++ t) := by
  rcases second with shown | ⟨-, rfl⟩
  · exact .inl (shown.append_left s)
  · rwa [List.append_nil]

end Closed

/-- Whether what lies between two places is closed. -/
def Cursor.Closes (breaks : List Char) (must : Bool) (c d : Cursor) : Prop :=
  ∃ taken, c.rest = taken ++ d.rest ∧ Closed breaks must taken

namespace Cursor.Closes

variable {breaks : List Char} {must : Bool} {c d e : Cursor}

theorem refl (c : Cursor) : c.Closes breaks false c :=
  ⟨[], rfl, .inr ⟨rfl, rfl⟩⟩

theorem trans (first : c.Closes breaks must d) (second : d.Closes breaks false e) :
    c.Closes breaks must e := by
  obtain ⟨s, rest, closed⟩ := first
  obtain ⟨t, rest', closed'⟩ := second
  exact ⟨s ++ t, by rw [rest, rest', List.append_assoc], closed.append closed'⟩

/-- Only the last piece matters. -/
theorem of_reaches (first : c.Reaches d) (second : d.Closes breaks true e) :
    c.Closes breaks must e := by
  obtain ⟨s, rest, -⟩ := first
  obtain ⟨t, rest', closed⟩ := second
  exact ⟨s ++ t, by rw [rest, rest', List.append_assoc], closed.append_left s⟩

theorem mono {fewer : List Char} (subset : fewer ⊆ breaks) (h : c.Closes breaks must d) :
    c.Closes fewer must d := by
  obtain ⟨taken, rest, closed⟩ := h
  exact ⟨taken, rest, closed.imp_left (Shown.mono subset)⟩

theorem advance {n : Nat} (h : Closed breaks must (c.rest.take n)) :
    Cursor.Closes breaks must c (c.advance n) :=
  ⟨c.rest.take n, by rw [advance_rest, List.take_append_drop], h⟩

end Cursor.Closes

namespace Pattern

variable {ρ : Type} {must : Bool} {p q : Pattern ρ}

/-- A pattern whose matches are closed, as long as those of the rules are. -/
def Stops : Bool → Pattern ρ → Prop
  | must, done => must = false
  | must, token measure => ∀ s n, measure s = some n → Closed lineBreaks must (s.take n)
  | must, both p q => Stops true q ∨ Stops must p ∧ Stops false q
  | must, either p q => Stops must p ∧ Stops must q
  | must, many p => must = false ∧ Stops false p
  | must, absent _ => must = false
  | _, rule _ => True

@[simp] theorem stops_append : Stops must (p ++ q) ↔ Stops true q ∨ Stops must p ∧ Stops false q :=
  Iff.rfl

@[simp] theorem stops_or : Stops must (p <|> q) ↔ Stops must p ∧ Stops must q := Iff.rfl

@[simp] theorem stops_either : Stops must (either p q) ↔ Stops must p ∧ Stops must q := Iff.rfl

@[simp] theorem stops_done : Stops must (done : Pattern ρ) ↔ must = false := Iff.rfl

@[simp] theorem stops_maybe : Stops must (maybe p) ↔ Stops must p ∧ must = false := Iff.rfl

@[simp] theorem stops_many : Stops must (many p) ↔ must = false ∧ Stops false p := Iff.rfl

@[simp] theorem stops_absent : Stops must (absent p) ↔ must = false := Iff.rfl

@[simp] theorem stops_ahead : Stops must (ahead p) ↔ must = false := Iff.rfl

@[simp] theorem stops_rule (name : ρ) : Stops must (rule name) := trivial

@[simp] theorem stops_only {holds : Bool} :
    Stops must (only holds p) ↔ (holds = true → Stops must p) := by
  cases holds with
  | false => exact ⟨nofun, fun _ _ _ => nofun⟩
  | true => exact ⟨fun h _ => h, fun h => h rfl⟩

/-- What a pattern takes is closed. -/
theorem run_closes {grammar : ρ → Pattern ρ} (rules : ∀ name, Stops true (grammar name))
    {fuel : Nat} {c d : Cursor} (stops : Stops must p) (h : run grammar fuel p c = some d) :
    c.Closes lineBreaks must d := by
  induction fuel generalizing p c d must with
  | zero => cases h
  | succ fuel ih =>
    cases p with
    | done =>
      obtain rfl := Option.some.inj h
      obtain rfl : must = false := stops
      exact .refl c
    | token measure =>
      obtain ⟨n, measured, rfl⟩ := Option.map_eq_some_iff.mp h
      exact .advance (stops c.rest n measured)
    | both p q =>
      simp only [run] at h
      split at h
      · next e first =>
        rcases stops with second | ⟨stops, second⟩
        · exact .of_reaches (.run first) (ih second h)
        · exact (ih stops first).trans (ih second h)
      · cases h
    | either p q =>
      simp only [run] at h
      split at h
      · next e first =>
        obtain rfl := Option.some.inj h
        exact ih stops.1 first
      · exact ih stops.2 h
    | many p =>
      obtain ⟨rfl, inside⟩ := stops
      have again : Stops false (many p) := ⟨rfl, inside⟩
      simp only [run] at h
      split at h
      · next e first => exact (ih inside first).trans (ih again h)
      · obtain rfl := Option.some.inj h
        exact .refl c
    | absent p =>
      obtain rfl : must = false := stops
      simp only [run] at h
      split at h
      · cases h
      · obtain rfl := Option.some.inj h
        exact .refl c
    | rule name => exact .of_reaches (.refl c) (ih (rules name) h)

end Pattern

namespace Shape

open Pattern

variable {must : Bool} {s : String} {words : List String} {l : Language} {p : Place}

theorem stops_of_visible {measure : List Char → Option Nat} (h : Visible measure) :
    Stops must (token measure : Shape) :=
  fun s n measured => .inl (.of_endsVisibly (h s n measured))

@[simp] theorem stops_kw (h : endsVisibly s.toList = true) : Stops must (kw s) :=
  stops_of_visible (visible_keyword h)

@[simp] theorem stops_sym (h : endsVisibly s.toList = true) : Stops must (sym s) :=
  stops_of_visible (visible_symbol h)

@[simp] theorem stops_anyKw (h : words.all (endsVisibly ·.toList) = true) :
    Stops must (anyKw words) := by
  induction words with
  | nil => exact fun _ _ => nofun
  | cons w words ih =>
    obtain ⟨first, rest⟩ := (Bool.and_eq_true _ _).mp h
    exact ⟨stops_kw first, ih rest⟩

@[simp] theorem stops_anySym (h : words.all (endsVisibly ·.toList) = true) :
    Stops must (anySym words) := by
  induction words with
  | nil => exact fun _ _ => nofun
  | cons w words ih =>
    obtain ⟨first, rest⟩ := (Bool.and_eq_true _ _).mp h
    exact ⟨stops_sym first, ih rest⟩

@[simp] theorem stops_word : Stops must word := stops_of_visible visible_word

@[simp] theorem stops_str : Stops must str := stops_of_visible visible_string

@[simp] theorem stops_number : Stops must (token number? : Shape) :=
  stops_of_visible visible_number

@[simp] theorem stops_regex : Stops must (token regex? : Shape) := stops_of_visible visible_regex

@[simp] theorem stops_valueWord : Stops must (token valueWord? : Shape) :=
  stops_of_visible visible_valueWord

@[simp] theorem stops_operator : Stops must (token operator? : Shape) :=
  stops_of_visible visible_operator

@[simp] theorem stops_markupName : Stops must (token markupName? : Shape) :=
  stops_of_visible visible_markupName

@[simp] theorem stops_markupString : Stops must (token markupString? : Shape) :=
  stops_of_visible visible_markupString

@[simp] theorem stops_piece {r : Rule} : Stops must (piece r) := trivial

@[simp] theorem stops_expression : Stops must expression := trivial

@[simp] theorem stops_assignment : Stops must assignment := trivial

@[simp] theorem stops_typeHere : Stops must typeHere := trivial

/-- Whether type arguments are read as such is decided without taking anything. -/
@[simp] theorem stops_acceptsTypeArguments :
    Stops false (token acceptsTypeArguments : Shape) := by
  intro s n measured
  have same := (Option.ite_none_right_eq_some.mp measured).2
  obtain rfl := Option.some.inj same
  exact .inr ⟨rfl, rfl⟩

/-- The end of a statement is a semicolon or the end of a comment. In a line comment, the slashes
that start it are on the line. -/
theorem closeScan_shown {e : Ending} {state : GapState} {seen : Nat} {before rest : List Char}
    {stop : Close} (h : closeScan e state seen rest = some stop) (length : before.length = seen)
    (inLine : state = .line → Shown lineBreaks before) :
    Shown lineBreaks ((before ++ rest).take stop.length) := by
  fun_induction closeScan e state seen rest generalizing before with
  | case1 seen =>
    obtain rfl := Option.some.inj h
    rw [Close.length_bare, ← length, List.take_left]
    exact inLine rfl
  | case2 => cases h
  | case3 => cases h
  | case4 seen rest ih =>
    rw [List.append_cons, List.append_cons, List.append_assoc before]
    have slashes : Shown lineBreaks (before ++ ['/', '/']) :=
      .append_left before (.of_endsVisibly rfl)
    exact ih h (by simp [length]) fun _ => slashes
  | case5 seen rest ih =>
    rw [List.append_cons, List.append_cons]
    exact ih h (by simp [length]) nofun
  | case6 => cases h
  | case7 seen c rest _ semicolon =>
    obtain rfl := Option.some.inj h
    obtain rfl := beq_iff_eq.mp semicolon
    have whole : before ++ ';' :: rest = before ++ [';'] ++ rest := List.append_cons ..
    rw [whole, Close.length_semicolon, List.take_left' (by simp [length])]
    exact .append_left before (.of_endsVisibly rfl)
  | case8 seen c rest _ _ _ ih =>
    rw [List.append_cons]
    exact ih h (by simp [length]) nofun
  | case9 => cases h
  | case10 seen c rest =>
    obtain rfl := Option.some.inj h
    rw [Close.length_bare, ← length, List.take_left]
    exact inLine rfl
  | case11 seen c rest _ _ ih =>
    rw [List.append_cons]
    exact ih h (by simp [length]) nofun
  | case12 seen c rest goesOn ih =>
    have unbroken : ∀ x ∈ [c], x ∉ lineBreaks := by
      have stops : ∀ x ∈ lineBreaks, stopsComment x = true :=
        List.all_eq_true.mp (by decide)
      rw [List.forall_mem_singleton]
      exact fun gone => goesOn (stops c gone)
    rw [List.append_cons]
    exact ih h (by simp [length]) fun _ => (inLine rfl).append_line unbroken
  | case13 seen rest =>
    obtain rfl := Option.some.inj h
    have whole : before ++ '*' :: '/' :: rest = before ++ ['*', '/'] ++ rest := by simp
    rw [whole, Close.length_bare, List.take_left' (by simp [length])]
    exact .append_left before (.of_endsVisibly rfl)
  | case14 seen rest _ ih =>
    rw [List.append_cons, List.append_cons]
    exact ih h (by simp [length]) nofun
  | case15 seen rest _ ih =>
    rw [List.append_cons]
    exact ih h (by simp [length]) nofun
  | case16 seen c rest _ ih =>
    rw [List.append_cons]
    exact ih h (by simp [length]) nofun

theorem closed_of_close? {e : Ending} {s : List Char} {stop : Close} (h : close? e s = some stop) :
    Closed lineBreaks false (s.take stop.length) := by
  unfold close? at h
  split at h
  · obtain rfl := Option.some.inj h
    exact .inr ⟨rfl, rfl⟩
  · have shown : Shown lineBreaks (([] ++ s).take stop.length) := closeScan_shown h rfl nofun
    exact .inl shown

theorem closed_of_closeLength {e : Ending} {s : List Char} {n : Nat}
    (h : closeLength e s = some n) : Closed lineBreaks false (s.take n) := by
  obtain ⟨stop, closes, rfl⟩ := Option.map_eq_some_iff.mp h
  exact closed_of_close? closes

theorem closed_trailLength (e : Ending) (s : List Char) :
    Closed lineBreaks false (s.take (trailLength e s)) := by
  unfold trailLength
  split
  · next closes => exact closed_of_close? closes
  · exact .inr ⟨rfl, rfl⟩

@[simp] theorem stops_closeLength {e : Ending} : Stops false (token (closeLength e) : Shape) :=
  fun _ _ => closed_of_closeLength

end Shape

open Shape

theorem grammar_stops (l : Language) (r : Rule) : Pattern.Stops true (grammar l r) := by
  cases r with
  | primary p =>
    obtain ⟨ends, consequent⟩ := p
    cases consequent <;>
      simp [grammar, primary, arrowTail, functionExpression, arrowFunction, endsVisibly,
        isAsciiBlank]
  | statement =>
    simp [grammar, statement, controlStatement, condition, loopHead, declaration,
      functionDeclaration, typedDeclaration, dottedName, nestedModuleStatement, declarators,
      signature, annotation, close, endsVisibly, isAsciiBlank]
  | expression p | assignment p | operand p | arrowBody p | arguments | parenthesized | array
  | object | parameters | functionTail | objectType | block =>
    simp [grammar, continuing, suffix, signature, endsVisibly, isAsciiBlank]
  | unary p => simp [grammar, unary, endsVisibly, isAsciiBlank]
  | template => simp [grammar, template, endsVisibly, isAsciiBlank]
  | element => simp [grammar, element, endsVisibly, isAsciiBlank]
  | binding => simp [grammar, binding, endsVisibly, isAsciiBlank]
  | decorator => simp [grammar, decorator, endsVisibly, isAsciiBlank]
  | classTail => simp [grammar, classTail, endsVisibly, isAsciiBlank]
  | typeAt p => simp [grammar, typeAt, functionType, endsVisibly, isAsciiBlank]
  | typeUnion p => simp [grammar, typeUnion, endsVisibly, isAsciiBlank]
  | typeOperand p => simp [grammar, typeOperand, functionType, endsVisibly, isAsciiBlank]
  | typePrimary p => simp [grammar, typePrimary, endsVisibly, isAsciiBlank]
  | typeArguments => simp [grammar, typeArguments, endsVisibly, isAsciiBlank]
  | typeParameters => simp [grammar, typeParameters, endsVisibly, isAsciiBlank]
  | enumBody => simp [grammar, enumBody, endsVisibly, isAsciiBlank]
  | declarator p => simp [grammar, declarator, annotation, endsVisibly, isAsciiBlank]

/-! ## Readers -/

/-- A reader that takes closed pieces of a text. -/
def Ends {α : Type} (must : Bool) (r : Reader α) : Prop :=
  ∀ c a d, r c = some (a, d) → c.Closes lineBreaks must d

namespace Ends

variable {α β : Type} {must : Bool} {r q : Reader α}

theorem bind {f : α → Reader β} (first : Ends must r) (second : ∀ a, Ends false (f a)) :
    Ends must (r >>= f) := by
  intro c b d h
  rw [Reader.bind_apply] at h
  split at h
  · cases h
  · next a e read => exact (first c a e read).trans (second a e b d h)

/-- A step behind which something follows that can be seen. -/
theorem after {f : α → Reader β} (first : Forward r) (second : ∀ a, Ends true (f a)) :
    Ends must (r >>= f) := by
  intro c b d h
  rw [Reader.bind_apply] at h
  split at h
  · cases h
  · next a e read => exact .of_reaches (first c a e read) (second a e b d h)

theorem or (first : Ends must r) (second : Ends must q) : Ends must (r <|> q) := by
  intro c a d h
  change (r c <|> q c) = _ at h
  cases read : r c with
  | none => exact second c a d (by simpa [read] using h)
  | some pair => exact first c a d (by simpa [read] using h)

theorem pure (a : α) : Ends false (Pure.pure a : Reader α) := by
  rintro c b d ⟨⟩
  exact .refl c

theorem failure : Ends must (Alternative.failure : Reader α) :=
  fun _ _ _ => nofun

theorem lift (value : Option α) : Ends false (liftM value : Reader α) := by
  cases value with
  | none => exact fun _ _ _ => nofun
  | some a =>
    rintro c b d ⟨⟩
    exact .refl c

theorem only (holds : Bool) (h : Ends must r) : Ends must (Reader.only holds r) := by
  cases holds with
  | false => exact failure
  | true => exact h

theorem of_must (h : Ends true r) : Ends must r :=
  fun c a d read => .of_reaches (.refl c) (h c a d read)

theorem skip {measure : List Char → Option Nat}
    (h : ∀ s n, measure s = some n → Closed lineBreaks must (s.take n)) :
    Ends must (Reader.skip measure) := by
  intro c a d read
  obtain ⟨e, token, ⟨⟩⟩ := Option.map_eq_some_iff.mp read
  obtain ⟨n, measured, rfl⟩ := Option.map_eq_some_iff.mp token
  exact .advance (h c.rest n measured)

theorem text {measure : List Char → Option Nat} (h : Visible measure) :
    Ends must (Reader.text measure) := by
  intro c a d read
  obtain ⟨n, measured, ⟨⟩⟩ := Option.map_eq_some_iff.mp read
  exact .advance (.inl (.of_endsVisibly (h c.rest n measured)))

theorem symbol {k : String} (h : endsVisibly k.toList = true) : Ends must (Reader.symbol k) :=
  skip fun s n measured => .inl (.of_endsVisibly (visible_symbol h s n measured))

theorem close (s : Scope) (operand : Bool) : Ends false (Reader.close s operand) :=
  skip fun _ _ => closed_of_closeLength

theorem pass {s : Scope} {p : Shape} (h : Pattern.Stops must p) : Ends must (Reader.pass s p) := by
  intro c a d read
  obtain ⟨e, matched, ⟨⟩⟩ := Option.map_eq_some_iff.mp read
  exact Pattern.run_closes (grammar_stops s.language) h matched

theorem slice {s : Scope} {p : Shape} (h : Pattern.Stops must p) :
    Ends must (Reader.slice s p) := by
  intro c a d read
  obtain ⟨e, matched, ⟨⟩⟩ := Option.map_eq_some_iff.mp read
  exact Pattern.run_closes (grammar_stops s.language) h matched

end Ends

section

variable (s : Scope)

theorem entries_ends (n : Nat) : Ends true (entries n) := by
  induction n with
  | zero => exact .failure
  | succ _ ih =>
    refine .or (.after .gap fun _ => .bind (.symbol rfl) fun _ => .pure []) ?_
    refine .after (entryWords_forward 4) fun entry => .after .gap fun _ => .or ?_ ?_
    · exact .after (.symbol _) fun _ => ih.bind fun _ => .pure _
    · exact .bind (.symbol rfl) fun _ => .pure [entry]

theorem braced_ends : Ends true (braced s) :=
  .after (.symbol _) fun _ => entries_ends s.fuel

theorem fromClause_ends : Ends true fromClause :=
  .after .gap fun _ => .after (.keyword _) fun _ => .after .gap fun _ => .text visible_string

theorem attributes_ends : Ends false (attributes s) := by
  refine .or (.after (.link s _) fun _ => .bind (.slice ?_) fun _ => .pure _) (.pure none)
  simp

theorem importAlias_ends : Ends true (importAlias s) := by
  refine .only _ (.after (.pass s _) fun _ => .bind (.pass ?_) fun _ => .bind (.close s _) fun _ =>
    .pure _)
  simp [dottedName]

theorem importStatement_ends : Ends true (importStatement s) := by
  refine .after .get fun start => .after (.keyword _) fun _ => .after .gap fun _ => ?_
  refine .or (importAlias_ends s) (.bind (.or ?_ ?_) fun parts => ?_)
  · exact .bind (.text visible_string) fun _ => .pure _
  · refine .after (typeMark_forward s) fun _ => .after (importClause_forward s) fun _ => ?_
    exact .bind fromClause_ends fun _ => .pure _
  · refine .bind (attributes_ends s) fun _ => .bind (.close s _) fun _ => .bind ?_ fun _ => .pure _
    rintro c a d ⟨⟩
    exact .refl c

theorem exportClause_ends : Ends true (exportClause s) := by
  refine .after (.or (.bind (.only _ (.keyword _)) fun _ => .gap) (.pure ())) fun _ => .or ?_ ?_
  · refine .after (.symbol _) fun _ => .after (.or ?_ (.pure none)) fun _ => ?_
    · refine .bind .gap fun _ => .bind (.keyword _) fun _ => .bind .gap fun _ => ?_
      exact .bind (.or (.text _) (.text _)) fun _ => .pure _
    · refine .bind fromClause_ends fun _ => .bind (attributes_ends s) fun _ => ?_
      exact .bind (.close s _) fun _ => .pure _
  · refine .bind (braced_ends s) fun _ => .bind (.lift _) fun _ => .bind (.or ?_ (.pure none))
      fun _ => .bind (.close s _) fun _ => .pure _
    exact .bind (.of_must fromClause_ends) fun _ => .bind (attributes_ends s) fun _ => .pure _

theorem trail_ends (standing : Standing) : Ends false (trail s standing) :=
  .skip fun t _ measured => Option.some.inj measured ▸ closed_trailLength _ t

theorem functionDeclared_ends (standing : Standing) : Ends true (functionDeclared s standing) := by
  refine .after (.or (.bind (.keyword _) fun _ => .link s _) (.pure ())) fun _ => ?_
  refine .after (.keyword _) fun _ => .after (.or ?_ (.pure false)) fun _ => ?_
  · exact .bind .gap fun _ => .bind (.symbol _) fun _ => .pure true
  · refine .after nameHere_forward fun _ => .bind (.pass ?_) fun _ => .or ?_ ?_
    · simp [signature, annotation]
    · exact .bind (.pass (by simp)) fun _ => .bind (trail_ends s standing) fun _ => .pure _
    · exact .bind (.only _ (.skip fun _ _ => closed_of_closeLength)) fun _ => .pure _

theorem classDeclared_ends (standing : Standing) : Ends true (classDeclared s standing) := by
  refine .after (.pass s _) fun _ => .after (.or ?_ (.pure false)) fun abstract => ?_
  · exact .bind (.only _ (.keyword _)) fun _ => .bind (.link s _) fun _ => .pure true
  · refine .after (.keyword _) fun _ => .after .gap fun _ => .after (.pass s _) fun _ => ?_
    refine .after (.text _) fun _ => .bind (.pass (by simp)) fun _ => ?_
    split
    · exact .pure _
    · exact .bind (trail_ends s standing) fun _ => .pure _

theorem readDeclarators_ends (n : Nat) : Ends true (readDeclarators s n) := by
  induction n with
  | zero => exact .failure
  | succ _ ih =>
    refine .after .gap fun _ => .bind (.or ?_ ?_) fun names => ?_
    · exact .bind (.text visible_word) fun _ => .pure _
    · exact .bind (.pass (by simp)) fun _ => .pure []
    · refine .bind (.pass (by simp [endsVisibly, isAsciiBlank])) fun _ => ?_
      refine .bind (.pass (by simp [ annotation])) fun _ => .bind (.or ?_ (.pure false))
        fun valued => .or ?_ (.pure _)
      · refine .after .gap fun _ => .after (.symbol _) fun _ => ?_
        exact .bind (.pass (by simp)) fun _ => .pure true
      · exact .after (.link s _) fun _ => .after (.symbol _) fun _ => ih.bind fun _ => .pure _

theorem variableDeclared_ends : Ends true (variableDeclared s) := by
  refine .after (.or ?_ (.or ?_ ?_)) fun kind => ?_
  · exact .bind (.keyword _) fun _ => .pure _
  · exact .bind (.keyword _) fun _ => .pure _
  · exact .bind (.keyword _) fun _ => .bind (.link s _) fun _ => .pure _
  · exact .bind (readDeclarators_ends s s.fuel) fun _ => .bind (.close s _) fun _ => .pure _

theorem typedDeclared_ends (standing : Standing) : Ends true (typedDeclared s standing) := by
  refine .only _ (.or ?_ (.or ?_ (.or ?_ (.or ?_ ?_))))
  · refine .after (.keyword _) fun _ => .after nameHere_forward fun _ => ?_
    exact .bind (.pass (by simp)) fun _ => .pure _
  · refine .after (.keyword _) fun _ => .after (.link s _) fun _ => .after (.text _) fun _ => ?_
    exact .bind (.pass (by simp)) fun _ => .bind (.close s _) fun _ => .pure _
  · refine .after (.or (.bind (.keyword _) fun _ => .gap) (.pure ())) fun _ => ?_
    refine .after (.keyword _) fun _ => .after nameHere_forward fun _ => ?_
    exact .bind (.pass (by simp)) fun _ => .pure _
  · refine .after (.keyword _) fun _ => .after (.link s _) fun _ => .after (.slice s _) fun _ => ?_
    exact .bind (.pass (by simp)) fun _ => .bind (trail_ends s standing) fun _ => .pure _
  · refine .after (.keyword _) fun _ => .after (.link s _) fun _ =>
      .bind (.or ?_ ?_) fun names => ?_
    · refine .bind (.skip fun t n measured => ?_) fun _ => .pure []
      exact .inl (.of_endsVisibly (visible_string t n measured))
    · exact .bind (.slice (by simp [dottedName])) fun _ => .pure _
    · refine .bind (.or ?_ (.close s _)) fun _ => .pure _
      exact .bind (.pass (by simp)) fun _ => trail_ends s standing

theorem declared_ends (standing : Standing) : Ends true (declared s standing) := by
  have stays : Ends false Reader.offset := by
    rintro c a d ⟨⟩
    exact .refl c
  refine .after .offset fun start => .bind ?_ fun pair => .bind stays fun _ => .pure _
  exact .or (functionDeclared_ends s standing) (.or (typedDeclared_ends s standing)
    (.or (variableDeclared_ends s) (classDeclared_ends s standing)))

theorem defaultValue_ends : Ends true (defaultValue s) := by
  refine .after .gap fun _ => .or ?_ (.or ?_ ?_)
  · exact .bind (declared_ends s _) fun _ => .pure _
  · refine .bind (.text visible_valueWord) fun name => ?_
    split
    · exact .bind .failure fun _ => .bind (.close s _) fun _ => .pure _
    · exact .bind (.close s _) fun _ => .pure _
  · exact .bind (.pass (by simp)) fun _ => .bind (.close s _) fun _ => .pure _

theorem exportStatement_ends : Ends true (exportStatement s) := by
  refine .after (.pass s _) fun _ => .after (.keyword _) fun _ => .after (.link s _) fun _ => ?_
  refine .or ?_ (.or (exportClause_ends s) (.or ?_ (.only _ (.or ?_ (.or ?_ (.or ?_ ?_))))))
  · exact .after (.keyword _) fun _ => .bind (defaultValue_ends s) fun _ => .pure _
  · exact .bind (declared_ends s _) fun _ => .pure _
  · refine .after (.symbol _) fun _ => .bind (.pass (by simp)) fun _ => ?_
    exact .bind (.close s _) fun _ => .pure _
  · refine .after (.keyword _) fun _ => .bind (.pass (by simp)) fun _ => ?_
    exact .bind (.close s _) fun _ => .pure _
  · exact .bind (.pass (by simp)) fun _ => .pure _
  · exact .after (.keyword _) fun _ => .after .gap fun _ => importAlias_ends s

theorem plainStatement_ends : Ends true (plainStatement s) := by
  refine .or (.bind (declared_ends s _) fun _ => .pure _) (.or ?_ ?_)
  · refine .bind (.skip fun t n measured => ?_) fun _ => .bind (.close s _) fun _ => .pure _
    exact .inl (.of_endsVisibly (visible_string t n measured))
  · exact .bind (.pass (by simp [Shape.close])) fun _ => .pure _

/-- A statement takes something, and ends on a line on which something of it can be seen. -/
theorem statementHere_ends : Ends true (statementHere s) :=
  .or (importStatement_ends s) (.or (exportStatement_ends s) (plainStatement_ends s))

end

end ModuleRepair.Script
