import ModuleRepair.Text.Lines

/-!
# Carriage returns with line feeds

In a text with Windows line ends, carriage returns and line feeds stand in pairs (`InCrlf`). A piece
of such a text has such line ends itself unless one of its cuts lies within a pair
(`InCrlf.of_append`).
-/
namespace ModuleRepair.Text

/-- Whether carriage returns and line feeds stand in pairs. -/
def isCrlf : List Char → Bool
  | [] => true
  | '\r' :: '\n' :: s => isCrlf s
  | c :: s => c != '\r' && c != '\n' && isCrlf s

/-- A text in which a carriage return is in front of every line feed, and a line feed behind every
carriage return. -/
structure InCrlf (s : List Char) : Prop where
  before_feed : ∀ a b, s = a ++ '\n' :: b → a.getLast? = some '\r'
  behind_return : ∀ a b, s = a ++ '\r' :: b → b.head? = some '\n'

/-- A text without line ends. -/
def Unbroken (s : List Char) : Prop :=
  ∀ c ∈ s, c ≠ '\r' ∧ c ≠ '\n'

instance (s : List Char) : Decidable (Unbroken s) :=
  List.decidableBAll (fun c => c ≠ '\r' ∧ c ≠ '\n') s

/-- A cut that does not lie between a carriage return and its line feed. -/
def Apart (a b : List Char) : Prop :=
  a.getLast? = some '\r' → b.head? ≠ some '\n'

section

variable {a b s t : List Char} {c : Char}

theorem Apart.of_left (h : a.getLast? ≠ some '\r') : Apart a b :=
  fun ends => absurd ends h

theorem Apart.of_right (h : b.head? ≠ some '\n') : Apart a b :=
  fun _ => h

theorem isCrlf_cons (h : ∀ s', c :: s ≠ '\r' :: '\n' :: s') :
    isCrlf (c :: s) = (c != '\r' && c != '\n' && isCrlf s) := by
  rw [isCrlf]
  exact fun s' first rest => h s' (by rw [first, rest])

/-- Behind a cut that lies within no pair, a text starts anew. -/
theorem isCrlf_append (apart : Apart a b) : isCrlf (a ++ b) = (isCrlf a && isCrlf b) := by
  fun_induction isCrlf a with
  | case1 => rfl
  | case2 a ih =>
    refine ih fun ends => apart ?_
    simp [List.getLast?_cons, ends]
  | case3 c a single ih =>
    have single' : ∀ s', c :: (a ++ b) ≠ '\r' :: '\n' :: s' := by
      rintro s' same
      obtain ⟨rfl, behind⟩ := List.cons.inj same
      cases a with
      | nil => exact apart rfl (by simp [show b = _ from behind])
      | cons x a =>
        obtain ⟨rfl, rfl⟩ := List.cons.inj behind
        exact single a rfl rfl
    have apart' : Apart a b := fun ends => apart (by simp [List.getLast?_cons, ends])
    rw [List.cons_append, isCrlf_cons single', ih apart', Bool.and_assoc]
    simp only [Bool.and_assoc]

theorem isCrlf_of_unbroken (h : Unbroken s) : isCrlf s = true := by
  induction s with
  | nil => rfl
  | cons c s ih =>
    obtain ⟨here, rest⟩ := List.forall_mem_cons.mp h
    rw [isCrlf_cons fun s' same => here.1 (List.cons.inj same).1, ih rest]
    simpa using here

theorem inCrlf_of_isCrlf (h : isCrlf s = true) : InCrlf s := by
  constructor
  · rintro a b rfl
    refine Decidable.byContradiction fun single => ?_
    rw [isCrlf_append (.of_left single)] at h
    simp [isCrlf] at h
  · rintro a b rfl
    refine Decidable.byContradiction fun single => ?_
    have apart : Apart (a ++ ['\r']) b := .of_right single
    rw [List.append_cons, isCrlf_append apart, isCrlf_append (.of_right (by simp))] at h
    simp [isCrlf] at h

theorem isCrlf_of_inCrlf (h : InCrlf s) : isCrlf s = true := by
  fun_induction isCrlf s with
  | case1 => rfl
  | case2 s ih =>
    refine ih ⟨?_, ?_⟩
    · rintro a b rfl
      have last := h.before_feed ('\r' :: '\n' :: a) b rfl
      cases a with
      | nil => cases last
      | cons x a => simpa using last
    · rintro a b rfl
      exact h.behind_return ('\r' :: '\n' :: a) b rfl
  | case3 c s single ih =>
    have carriage : c ≠ '\r' := by
      rintro rfl
      obtain ⟨rest, rfl⟩ := List.head?_eq_some_iff.mp (h.behind_return [] s rfl)
      exact single rest rfl rfl
    have feed : c ≠ '\n' := by
      rintro rfl
      cases h.before_feed [] s rfl
    have rest : InCrlf s := by
      constructor
      · rintro a b rfl
        have last := h.before_feed (c :: a) b rfl
        cases a with
        | nil => exact absurd (Option.some.inj last) carriage
        | cons x a => simpa using last
      · rintro a b rfl
        exact h.behind_return (c :: a) b rfl
    simp [carriage, feed, ih rest]

theorem isCrlf_iff : isCrlf s = true ↔ InCrlf s :=
  ⟨inCrlf_of_isCrlf, isCrlf_of_inCrlf⟩

instance (s : List Char) : Decidable (InCrlf s) :=
  decidable_of_iff _ isCrlf_iff

namespace InCrlf

theorem nil : InCrlf [] :=
  isCrlf_iff.mp rfl

theorem pair : InCrlf ['\r', '\n'] :=
  isCrlf_iff.mp rfl

theorem of_unbroken (h : Unbroken s) : InCrlf s :=
  isCrlf_iff.mp (isCrlf_of_unbroken h)

/-- Such a text does not end within a pair. -/
theorem getLast?_ne (h : InCrlf s) : s.getLast? ≠ some '\r' := by
  intro ends
  obtain ⟨a, rfl⟩ := List.getLast?_eq_some_iff.mp ends
  cases h.behind_return a [] rfl

theorem append (first : InCrlf a) (second : InCrlf b) : InCrlf (a ++ b) := by
  rw [← isCrlf_iff, isCrlf_append (.of_left first.getLast?_ne)]
  simp [isCrlf_iff.mpr first, isCrlf_iff.mpr second]

theorem of_append (apart : Apart a b) (h : InCrlf (a ++ b)) : InCrlf a ∧ InCrlf b := by
  rw [← isCrlf_iff, isCrlf_append apart, Bool.and_eq_true] at h
  exact ⟨isCrlf_iff.mp h.1, isCrlf_iff.mp h.2⟩

/-- Behind a carriage return, only a line feed can follow. -/
theorem head?_behind (h : InCrlf (a ++ b)) (ends : a.getLast? = some '\r') :
    b.head? = some '\n' := by
  obtain ⟨a, rfl⟩ := List.getLast?_eq_some_iff.mp ends
  rw [List.append_assoc] at h
  exact h.behind_return a b rfl

/-- A line feed shows that there is a pair. -/
theorem contains_pair (h : InCrlf s) (broken : '\n' ∈ s) : contains ['\r', '\n'] s = true := by
  rw [← isCrlf_iff] at h
  fun_induction isCrlf s with
  | case1 => cases broken
  | case2 s => simp [contains, List.isPrefixOf]
  | case3 c s single ih =>
    simp only [Bool.and_eq_true, bne_iff_ne] at h
    have later : '\n' ∈ s := (List.mem_cons.mp broken).resolve_left h.1.2.symm
    rw [contains, ih h.2 later, Bool.or_true]

end InCrlf

end

end ModuleRepair.Text
