import ModuleRepair.Proofs.Path.Last

/-!
# Normal forms of joined paths

The normal form of a path is given by its leading slashes and by the names at which the walk along
its segments ends (`absolute_eq_iff`). A relative path that is taken from a directory leaves the
slashes as they are and walks on from there. So it makes no difference whether the directory was in
normal form (`absolute_join_absolute`), or how a path is spelled within.
-/
namespace ModuleRepair.Path

open ModuleRepair.Text

/-! ## Joining -/

/-- What is joined stands at the end. -/
theorem suffix_join (d p : String) : ∃ front, (join d p).toList = front ++ p.toList := by
  unfold join
  split
  · exact ⟨[], rfl⟩
  · split
    · exact ⟨d.toList, String.toList_append⟩
    · exact ⟨(d ++ "/").toList, String.toList_append⟩

theorem isAbsolute_append {p : String} (filled : p ≠ "") (t : String) :
    isAbsolute (p ++ t) = isAbsolute p := by
  obtain ⟨c, rest, text⟩ := List.exists_cons_of_ne_nil (mt String.toList_eq_nil_iff.mp filled)
  rw [isAbsolute, isAbsolute, String.toList_append, text]
  rfl

theorem join_longer {p : String} (filled : p ≠ "") (d t : String) :
    join d (p ++ t) = join d p ++ t := by
  unfold join
  rw [isAbsolute_append filled]
  split
  · rfl
  · split <;> simp only [String.append_assoc]

/-- Going down from a path that does not end with a slash. -/
theorem join_below {d p : String} {front : List Char} {c : Char} (other : c ≠ '/')
    (text : d.toList = front ++ [c]) (relative : isAbsolute p = false) :
    join d p = d ++ "/" ++ p := by
  simp [join, relative, text, other]

/-- A text of names starts with no slash. -/
theorem isAbsolute_names {way : List Segment} (names : ∀ s ∈ way, IsName s) :
    isAbsolute (String.ofList (Text.join ['/'] way)) = false := by
  simpa [isAbsolute] using head?_join names

/-- Going down along names, one by one or all at once. -/
theorem join_join_names {s : Segment} {way : List Segment} (name : IsName s) (filled : way ≠ [])
    (names : ∀ t ∈ way, IsName t) (d : String) :
    join (join d (String.ofList s)) (String.ofList (Text.join ['/'] way)) =
      join d (String.ofList (Text.join ['/'] (s :: way))) := by
  obtain ⟨t, way, rfl⟩ := List.exists_cons_of_ne_nil filled
  obtain ⟨before, text⟩ := suffix_join d (String.ofList s)
  obtain ⟨front, ends⟩ : ∃ front, s = front ++ [s.getLast name.some] :=
    ⟨_, (List.dropLast_concat_getLast name.some).symm⟩
  have last : (join d (String.ofList s)).toList = (before ++ front) ++ [s.getLast name.some] := by
    rw [text, String.toList_ofList, List.append_assoc, ← ends]
  have other : s.getLast name.some ≠ '/' :=
    fun slash => name.noSlash (slash ▸ List.getLast_mem name.some)
  have whole : String.ofList (Text.join ['/'] (s :: t :: way)) =
      String.ofList s ++ ("/" ++ String.ofList (Text.join ['/'] (t :: way))) := by
    rw [join_cons_cons, ← String.toList_inj]
    simp
  have some : String.ofList s ≠ "" := by
    rw [ne_eq, ← String.toList_inj, String.toList_ofList]
    exact name.some
  rw [join_below other last (isAbsolute_names names), whole, join_longer some, String.append_assoc]

/-! ## Normal forms -/

/-- The leading slashes of the normal form of a path. -/
def leading (p : String) : Nat :=
  rootSlashes (join "/" p).toList

theorem normal_leading (p : String) : Normal (leading p) (names p).reverse (absolute p) := by
  have walked : names (join "/" p) = names p := by
    cases rooted : isAbsolute p with
    | true => rw [join_of_isAbsolute rooted]
    | false =>
      rw [names_join rooted]
      rfl
  have normal := normal_of_join p
  rwa [reduce, ← names, walked] at normal

/-- Two paths have one normal form if they start alike and lead to the same names. -/
theorem absolute_eq_iff {p q : String} :
    absolute p = absolute q ↔ leading p = leading q ∧ names p = names q := by
  have one := normal_leading p
  have two := normal_leading q
  constructor
  · intro same
    have slashes := congrArg (fun path => rootSlashes path.toList) same
    have walked := congrArg names same
    rw [one.text_eq, two.text_eq, rootSlashes_text one.slashes_eq one.isName,
      rootSlashes_text two.slashes_eq two.isName] at slashes
    rw [names_absolute, names_absolute] at walked
    exact ⟨slashes, walked⟩
  · intro ⟨slashes, walked⟩
    rw [← String.toList_inj, one.text_eq, two.text_eq, slashes, walked]

/-! ## Leading slashes -/

/-- At most three characters count, and the next one only behind slashes alone. -/
theorem rootSlashes_append {a b : List Char} (h : (∃ c ∈ a, c ≠ '/') ∨ b.head? ≠ some '/') :
    rootSlashes (a ++ b) = rootSlashes a := by
  rcases a with _ | ⟨c, _ | ⟨c', _ | ⟨c'', rest⟩⟩⟩ <;> rcases b with _ | ⟨e, rest'⟩ <;>
    simp_all [rootSlashes]
  · by_cases c = '/' <;> simp_all
  · by_cases c = '/' <;> by_cases c' = '/' <;> simp_all
  · by_cases c = '/' <;> by_cases c' = '/' <;> by_cases c'' = '/' <;> simp_all

theorem leading_of_absolute {p : String} (rooted : isAbsolute p = true) :
    leading p = rootSlashes p.toList := by
  rw [leading, join_of_isAbsolute rooted]

theorem leading_of_relative {p : String} (relative : isAbsolute p = false) : leading p = 1 := by
  have head : p.toList.head? ≠ some '/' := by simpa [isAbsolute] using relative
  have text : (join "/" p).toList = ['/'] ++ p.toList := by simp [join, relative]
  rw [leading, text, rootSlashes_append (.inr head)]
  rfl

theorem leading_join {p : String} (relative : isAbsolute p = false) (d : String) :
    leading (join d p) = leading d := by
  cases rooted : isAbsolute d with
  | true =>
    rw [leading_of_absolute (isAbsolute_join rooted p), leading_of_absolute rooted]
    unfold join
    rw [relative]
    split
    · cases ‹false = true›
    · split
      · have head : p.toList.head? ≠ some '/' := by simpa [isAbsolute] using relative
        rw [String.toList_append, rootSlashes_append (.inr head)]
      · next ends =>
        have some : d.toList ≠ [] := fun none => ends (by simp [none])
        have other : d.toList.getLast some ≠ '/' := by
          intro slash
          exact ends (by simp [List.getLast?_eq_some_getLast some, slash])
        rw [String.append_assoc, String.toList_append,
          rootSlashes_append (.inl ⟨_, List.getLast_mem some, other⟩)]
  | false =>
    have down : isAbsolute (join d p) = false := by
      by_cases filled : d = ""
      · simp [join, relative, filled]
      · unfold join
        rw [relative]
        split
        · cases ‹false = true›
        · split <;> simp only [String.append_assoc, isAbsolute_append filled, rooted]
    rw [leading_of_relative down, leading_of_relative rooted]

/-- What follows a path that is not made of slashes alone leaves the leading slashes as they are. -/
theorem leading_append {p : String} (h : ∃ c ∈ p.toList, c ≠ '/') (t : String) :
    leading (p ++ t) = leading p := by
  obtain ⟨c, there, other⟩ := h
  have filled : p ≠ "" := by
    rintro rfl
    cases there
  obtain ⟨front, text⟩ := suffix_join "/" p
  rw [leading, leading, join_longer filled, String.toList_append,
    rootSlashes_append (.inl ⟨c, text ▸ List.mem_append_right front there, other⟩)]

/-! ## Respelling -/

/-- It makes no difference whether the directory is in normal form. -/
theorem absolute_join_absolute {p : String} (relative : isAbsolute p = false) (d : String) :
    absolute (join (absolute d) p) = absolute (join d p) := by
  have slashes : leading (absolute d) = leading d := (absolute_eq_iff.mp (absolute_absolute d)).1
  rw [absolute_eq_iff, leading_join relative, leading_join relative, slashes, names_join relative,
    names_join relative, names_absolute]
  exact ⟨rfl, rfl⟩

/-- The walk along a longer path goes on behind the slash. -/
theorem names_longer (p t : String) :
    names (p ++ "/" ++ t) = (split '/' t.toList).foldl (push true) (names p) := by
  have text : p ++ "/" ++ t = String.ofList (p.toList ++ '/' :: t.toList) := by
    rw [← String.toList_inj]
    simp
  rw [text, names_append_slash, String.ofList_toList]

/-- What a walk passes over, or leaves again at once, may as well be left out. -/
theorem absolute_within {p middle : String} (h : ∃ c ∈ p.toList, c ≠ '/') (t : String)
    (idle : (split '/' middle.toList).foldl (push true) (names p) = names p) :
    absolute (p ++ "/" ++ middle ++ "/" ++ t) = absolute (p ++ "/" ++ t) := by
  rw [absolute_eq_iff, names_longer, names_longer p middle, idle, names_longer]
  simp only [String.append_assoc, leading_append h, true_and]

end ModuleRepair.Path
