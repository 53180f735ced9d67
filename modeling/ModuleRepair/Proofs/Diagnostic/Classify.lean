import ModuleRepair.Diagnostic.Classify
import ModuleRepair.Proofs.Text.Trim

/-!
# The names in fixes

A diagnostic has a fix only when its code has one, and what the fix names stands in the message
(`ReadFrom`). A name that a fix has to bind or to add is an identifier, and so there are letters in
it.
-/
namespace ModuleRepair.Fix

open ModuleRepair.Text

/-- A letter that starts an identifier, and others that continue it. -/
def IsIdentifier (s : List Char) : Prop :=
  ∃ c rest, s = c :: rest ∧ startsIdentifier c = true ∧ ∀ d ∈ rest, continuesIdentifier d = true

/-! ## Identifiers -/

theorem identifier?_eq_some_iff {s name rest : List Char} : identifier? s = some (name, rest) ↔
    s = name ++ rest ∧ IsIdentifier name ∧ ∀ c ∈ rest.head?, continuesIdentifier c = false := by
  constructor
  · intro h
    unfold identifier? at h
    split at h
    · cases h
    · next c tail =>
      split at h
      · next starts =>
        obtain ⟨rfl, rfl⟩ := Prod.mk.inj (Option.some.inj h)
        exact ⟨by simp, ⟨c, _, rfl, starts, fun d hd => List.mem_takeWhile_imp hd⟩,
          head?_dropWhile continuesIdentifier tail⟩
      · cases h
  · rintro ⟨rfl, ⟨c, name, rfl, starts, continues⟩, stops⟩
    simp [identifier?, starts, takeWhile_exact continues stops, dropWhile_exact continues stops]

theorem isIdentifier_iff {s : List Char} : isIdentifier s = true ↔ IsIdentifier s := by
  unfold isIdentifier
  constructor
  · intro h
    split at h
    · next name found =>
      obtain ⟨rfl, identifier, -⟩ := identifier?_eq_some_iff.mp found
      simpa using identifier
    · cases h
  · intro h
    have whole : identifier? s = some (s, []) :=
      identifier?_eq_some_iff.mpr ⟨by simp, h, by simp⟩
    rw [whole]

theorem IsIdentifier.ne_nil {s : List Char} (h : IsIdentifier s) : s ≠ [] := by
  obtain ⟨c, rest, rfl, -, -⟩ := h
  exact List.cons_ne_nil c rest

theorem upTo?_eq_some_iff {mark : Char} {s before after : List Char} :
    upTo? mark s = some (before, after) ↔
      s = before ++ mark :: after ∧ before ≠ [] ∧ mark ∉ before := by
  constructor
  · intro h
    unfold upTo? at h
    split at h
    · cases h
    · cases h
    · next before' c tail some' cut =>
      obtain ⟨rfl, rfl⟩ := Prod.mk.inj (Option.some.inj h)
      obtain ⟨whole, others, stops⟩ := span_eq_iff.mp cut
      obtain rfl : c = mark := by simpa using stops c rfl
      exact ⟨whole, some', fun there => by simpa using others c there⟩
  · rintro ⟨rfl, some', missing⟩
    have cut : (before ++ mark :: after).span (· != mark) = (before, mark :: after) :=
      span_eq_iff.mpr ⟨rfl, fun c hc => by
        simpa using fun same : c = mark => missing (same ▸ hc), by simp⟩
    obtain ⟨c, before, rfl⟩ := List.exists_cons_of_ne_nil some'
    rw [upTo?, cut]

/-! ## What is read stands in the text -/

/-- A part of a message, which is not empty. -/
def Stands (part message : List Char) : Prop :=
  part ≠ [] ∧ part <:+: message

theorem Stands.of_append {part front message : List Char} (h : Stands part message) :
    Stands part (front ++ message) :=
  ⟨h.1, h.2.trans (List.suffix_append front message).isInfix⟩

theorem Stands.of_suffix {part t message : List Char} (h : Stands part t) (ht : t <:+ message) :
    Stands part message :=
  ⟨h.1, h.2.trans ht.isInfix⟩

theorem upTo?_stands {mark : Char} {s before after : List Char}
    (h : upTo? mark s = some (before, after)) : Stands before s ∧ after <:+ s := by
  obtain ⟨rfl, some', -⟩ := upTo?_eq_some_iff.mp h
  exact ⟨⟨some', (List.prefix_append before _).isInfix⟩,
    (List.suffix_cons mark after).trans (List.suffix_append before _)⟩

theorem identifier?_stands {s name rest : List Char} (h : identifier? s = some (name, rest)) :
    (IsIdentifier name ∧ Stands name s) ∧ rest <:+ s := by
  obtain ⟨rfl, identifier, -⟩ := identifier?_eq_some_iff.mp h
  exact ⟨⟨identifier, identifier.ne_nil, (List.prefix_append name _).isInfix⟩,
    List.suffix_append name rest⟩

theorem suggestedSpecifier?_stands {s specifier : List Char}
    (h : suggestedSpecifier? s = some specifier) : Stands specifier s := by
  simp only [suggestedSpecifier?, Option.bind_eq_bind, Option.bind_eq_some_iff] at h
  obtain ⟨rest, start, ⟨specifier, after⟩, cut, -, -, same⟩ := h
  cases same
  obtain rfl := afterStart?_eq_some_iff.mp start
  exact (upTo?_stands cut).1.of_append

theorem suggestedNamed?_stands {s name specifier : List Char}
    (h : suggestedNamed? s = some (name, specifier)) : name <:+: s ∧ Stands specifier s := by
  simp only [suggestedNamed?, Option.bind_eq_bind, Option.bind_eq_some_iff] at h
  obtain ⟨rest, start, rest', brace, ⟨name, after⟩, cut, specifier, found, same⟩ := h
  cases same
  obtain rfl := afterStart?_eq_some_iff.mp start
  obtain rfl := afterStart?_eq_some_iff.mp brace
  obtain ⟨stands, behind⟩ := upTo?_stands cut
  have inBraces : Stands name (suggestion ++ ("\x7b".toList ++ rest')) := stands.of_append.of_append
  exact ⟨(trim_isInfix name).trans inBraces.2,
    ((suggestedSpecifier?_stands found).of_suffix behind).of_append.of_append⟩

theorem suggestedDefault?_stands {s name specifier : List Char}
    (h : suggestedDefault? s = some (name, specifier)) :
    (IsIdentifier name ∧ Stands name s) ∧ Stands specifier s := by
  simp only [suggestedDefault?, Option.bind_eq_bind, Option.bind_eq_some_iff] at h
  obtain ⟨rest, start, ⟨name, after⟩, cut, specifier, found, same⟩ := h
  cases same
  obtain rfl := afterStart?_eq_some_iff.mp start
  obtain ⟨⟨identifier, stands⟩, behind⟩ := identifier?_stands cut
  exact ⟨⟨identifier, stands.of_append⟩,
    ((suggestedSpecifier?_stands found).of_suffix behind).of_append⟩

theorem missingName?_stands {s name : List Char} (h : missingName? s = some name) :
    IsIdentifier name ∧ Stands name s := by
  simp only [missingName?, Option.bind_eq_bind, Option.bind_eq_some_iff] at h
  obtain ⟨rest, start, ⟨name, after⟩, cut, -, -, same⟩ := h
  cases same
  obtain rfl := afterStart?_eq_some_iff.mp start
  obtain ⟨⟨identifier, stands⟩, -⟩ := identifier?_stands cut
  exact ⟨identifier, stands.of_append⟩

theorem missingModule?_stands {s specifier : List Char} (h : missingModule? s = some specifier) :
    Stands specifier s := by
  simp only [missingModule?, Option.bind_eq_bind, Option.bind_eq_some_iff] at h
  obtain ⟨rest, start, ⟨specifier, after⟩, cut, same⟩ := h
  cases same
  obtain rfl := afterStart?_eq_some_iff.mp start
  exact (upTo?_stands cut).1.of_append

/-! ## Fixes -/

theorem search_suffix {α : Type} {pattern : List Char → Option α} {s : String} {a : α}
    (found : search pattern s = some a) : ∃ t, t <:+ s.toList ∧ pattern t = some a := by
  obtain ⟨⟨n, a⟩, there, rfl⟩ := Option.map_eq_some_iff.mp found
  exact findFirst?_suffix there

/-- The four ways to a fix. -/
theorem classify?_cases {code : Int} {message : String} {fix : Fix}
    (h : classify? code message = some fix) :
    (code = 2613 ∧ ∃ name specifier, search suggestedNamed? message = some (name, specifier) ∧
      isIdentifier name = true ∧
      fix = importByName (String.ofList name) (String.ofList specifier)) ∨
    (code = 2614 ∧ ∃ name specifier, search suggestedDefault? message = some (name, specifier) ∧
      fix = importDefault (String.ofList name) (String.ofList specifier)) ∨
    ((code = 2304 ∨ code = 2552) ∧ ∃ name, search missingName? message = some name ∧
      fix = addImport (String.ofList name)) ∨
    (code = 2307 ∧ ∃ specifier, search missingModule? message = some specifier ∧
      fix = correctPath (String.ofList specifier)) := by
  unfold classify? at h
  split at h
  · next is2613 =>
    split at h
    · next name specifier found =>
      obtain ⟨identifier, rfl⟩ := by simpa using h
      exact .inl ⟨is2613, name, specifier, found, identifier, rfl⟩
    · cases h
  · split at h
    · next is2614 =>
      obtain ⟨⟨name, specifier⟩, found, rfl⟩ := Option.map_eq_some_iff.mp h
      exact .inr (.inl ⟨is2614, name, specifier, found, rfl⟩)
    · split at h
      · next isMissing =>
        obtain ⟨name, found, rfl⟩ := Option.map_eq_some_iff.mp h
        exact .inr (.inr (.inl ⟨isMissing, name, found, rfl⟩))
      · split at h
        · next is2307 =>
          obtain ⟨specifier, found, rfl⟩ := Option.map_eq_some_iff.mp h
          exact .inr (.inr (.inr ⟨is2307, specifier, found, rfl⟩))
        · cases h

/-- The codes that have a kind of fix. -/
def codes : Fix → List Int
  | importByName _ _ => [2613]
  | importDefault _ _ => [2614]
  | addImport _ => [2304, 2552]
  | correctPath _ => [2307]

def name? : Fix → Option String
  | importByName name _ | importDefault name _ | addImport name => some name
  | correctPath _ => none

def specifier? : Fix → Option String
  | importByName _ specifier | importDefault _ specifier | correctPath specifier => some specifier
  | addImport _ => none

/-- The names of a fix are identifiers in the message of one of its codes, and its specifiers stand
there too. -/
structure ReadFrom (fix : Fix) (code : Int) (message : String) : Prop where
  code : code ∈ fix.codes
  name : ∀ name ∈ fix.name?, IsIdentifier name.toList ∧ Stands name.toList message.toList
  specifier : ∀ specifier ∈ fix.specifier?, Stands specifier.toList message.toList

theorem readFrom_of_classify? {code : Int} {message : String} {fix : Fix}
    (h : classify? code message = some fix) : fix.ReadFrom code message := by
  rcases classify?_cases h with ⟨rfl, name, specifier, found, identifier, rfl⟩ |
    ⟨rfl, name, specifier, found, rfl⟩ | ⟨isMissing, name, found, rfl⟩ |
    ⟨rfl, specifier, found, rfl⟩
  · obtain ⟨t, ht, fits⟩ := search_suffix found
    obtain ⟨inside, stands⟩ := suggestedNamed?_stands fits
    have identifier := isIdentifier_iff.mp identifier
    refine ⟨by simp [codes], ?_, ?_⟩
    · simpa [name?] using ⟨identifier, identifier.ne_nil, inside.trans ht.isInfix⟩
    · simpa [specifier?] using stands.of_suffix ht
  · obtain ⟨t, ht, fits⟩ := search_suffix found
    obtain ⟨⟨identifier, stands⟩, specified⟩ := suggestedDefault?_stands fits
    refine ⟨by simp [codes], ?_, ?_⟩
    · simpa [name?] using ⟨identifier, stands.of_suffix ht⟩
    · simpa [specifier?] using specified.of_suffix ht
  · obtain ⟨t, ht, fits⟩ := search_suffix found
    obtain ⟨identifier, stands⟩ := missingName?_stands fits
    refine ⟨by simpa [codes] using isMissing, ?_, by simp [specifier?]⟩
    simpa [name?] using ⟨identifier, stands.of_suffix ht⟩
  · obtain ⟨t, ht, fits⟩ := search_suffix found
    refine ⟨by simp [codes], by simp [name?], ?_⟩
    simpa [specifier?] using (missingModule?_stands fits).of_suffix ht

/-- The name that a fix binds anew or by default. -/
def boundName? : Fix → Option String
  | importDefault name _ => some name
  | addImport name => some name
  | _ => none

theorem name?_of_boundName? {fix : Fix} {name : String} (h : fix.boundName? = some name) :
    fix.name? = some name := by
  cases fix with
  | importByName => cases h
  | importDefault => exact h
  | addImport => exact h
  | correctPath => cases h

theorem boundName_ne_empty {code : Int} {message : String} {fix : Fix} {name : String}
    (h : classify? code message = some fix) (hn : fix.boundName? = some name) : name ≠ "" := by
  obtain ⟨-, some, -⟩ := (readFrom_of_classify? h).name name (name?_of_boundName? hn)
  simpa using some

end ModuleRepair.Fix
