import ModuleRepair.Script.Gap
import ModuleRepair.Proofs.Script.Tokens

/-!
# Gaps that are cut

Where a scan through blanks and comments stands behind a text (`gapState`) decides what the text
adds to a gap. A gap from which blanks are taken away is still one, if they were whole lines or the
text ends there (`gapState_of_blank`).
-/
namespace ModuleRepair.Script

open ModuleRepair.Text

/-- Where a scan stands behind a text; nothing when the gap ends within. -/
def gapState : GapState → List Char → Option GapState
  | state, [] => some state
  | .blank, '/' :: rest =>
    match rest with
    | '/' :: rest => gapState .line rest
    | '*' :: rest => gapState .block rest
    | _ => none
  | .blank, c :: rest => if isSpace c then gapState .blank rest else none
  | .line, c :: rest => gapState (if stopsComment c then .blank else .line) rest
  | .block, '*' :: rest =>
    match rest with
    | '/' :: rest => gapState .blank rest
    | rest => gapState .block rest
  | .block, _ :: rest => gapState .block rest

theorem gapScan_star {c : Char} (h : c ≠ '/') (seen closed : Nat) (rest : List Char) :
    gapScan .block seen closed ('*' :: c :: rest) =
      gapScan .block (seen + 1) closed (c :: rest) := by
  conv => lhs; unfold gapScan
  split <;> simp_all
  · next same =>
    obtain ⟨rfl, rfl⟩ := same
    split
    · next same => exact absurd (List.cons.inj same).1 h
    · rfl

theorem gapScan_inBlock {c : Char} (h : c ≠ '*') (seen closed : Nat) (rest : List Char) :
    gapScan .block seen closed (c :: rest) = gapScan .block (seen + 1) closed rest := by
  conv => lhs; unfold gapScan
  split <;> simp_all

/-- A text that does not end in a block comment leaves the scan in front of what follows. -/
theorem gapScan_append {state state' : GapState} {g : List Char}
    (h : gapState state g = some state') (outside : state' ≠ .block) (seen closed : Nat)
    (s : List Char) : ∃ closed',
      gapScan state seen closed (g ++ s) = gapScan state' (seen + g.length) closed' s := by
  fun_induction gapState state g generalizing seen closed with
  | case1 state =>
    obtain rfl := Option.some.inj h
    exact ⟨closed, rfl⟩
  | case2 rest ih =>
    obtain ⟨closed', same⟩ := ih h (seen + 2) closed
    have count : seen + 2 + rest.length = seen + (rest.length + 1 + 1) := by omega
    exact ⟨closed', count ▸ same⟩
  | case3 rest ih =>
    obtain ⟨closed', same⟩ := ih h (seen + 2) seen
    have count : seen + 2 + rest.length = seen + (rest.length + 1 + 1) := by omega
    exact ⟨closed', count ▸ same⟩
  | case4 => cases h
  | case5 c rest notSlash space ih =>
    obtain ⟨closed', same⟩ := ih h (seen + 1) closed
    have count : seen + 1 + rest.length = seen + (rest.length + 1) := by omega
    refine ⟨closed', ?_⟩
    rw [List.cons_append, gapScan_blank notSlash, if_pos space, same, count, List.length_cons]
  | case6 => cases h
  | case7 c rest ih =>
    obtain ⟨closed', same⟩ := ih h (seen + 1) closed
    have count : seen + 1 + rest.length = seen + (rest.length + 1) := by omega
    exact ⟨closed', count ▸ same⟩
  | case8 rest ih =>
    obtain ⟨closed', same⟩ := ih h (seen + 2) closed
    have count : seen + 2 + rest.length = seen + (rest.length + 1 + 1) := by omega
    exact ⟨closed', count ▸ same⟩
  | case9 rest notSlash ih =>
    cases rest with
    | nil => exact absurd (Option.some.inj h).symm outside
    | cons c rest =>
      have other : c ≠ '/' := fun same => notSlash rest (by rw [same])
      obtain ⟨closed', same⟩ := ih h (seen + 1) closed
      have count : seen + 1 + (c :: rest).length = seen + ((c :: rest).length + 1) := by omega
      refine ⟨closed', ?_⟩
      rw [count] at same
      rw [List.cons_append, List.cons_append, gapScan_star other]
      exact same
  | case10 c rest notStar ih =>
    obtain ⟨closed', same⟩ := ih h (seen + 1) closed
    have count : seen + 1 + rest.length = seen + (rest.length + 1) := by omega
    refine ⟨closed', ?_⟩
    rw [List.cons_append, gapScan_inBlock notStar, same, count, List.length_cons]

theorem gapScan_slash {rest : List Char} (line : ∀ more, rest ≠ '/' :: more)
    (block : ∀ more, rest ≠ '*' :: more) (seen closed : Nat) :
    gapScan .blank seen closed ('/' :: rest) = seen := by
  conv => lhs; unfold gapScan
  split
  · contradiction
  · rfl
  · next same =>
    obtain ⟨-, rfl⟩ := List.cons.inj same
    split
    · next more => exact absurd rfl (line more)
    · next more => exact absurd rfl (block more)
    · rfl
  · next other _ same => exact absurd (List.cons.inj same).1.symm (by simpa using other)
  all_goals contradiction

/-- A scan counts on from where it starts. -/
theorem gapScan_add (state : GapState) (seen closed k : Nat) (s : List Char) :
    gapScan state (seen + k) (closed + k) s = gapScan state seen closed s + k := by
  fun_induction gapScan state seen closed s with
  | case1 => rfl
  | case2 state seen closed outside => cases state <;> first | rfl | exact absurd rfl outside
  | case3 seen closed rest ih => rw [← ih, Nat.add_right_comm]; rfl
  | case4 seen closed rest ih => rw [← ih, Nat.add_right_comm]; rfl
  | case5 seen closed rest line block => exact gapScan_slash line block _ _
  | case6 seen closed c rest notSlash space ih =>
    rw [gapScan_blank notSlash, if_pos space, ← ih, Nat.add_right_comm]
  | case7 seen closed c rest notSlash space => rw [gapScan_blank notSlash, if_neg space]
  | case8 seen closed c rest ih => rw [← ih, Nat.add_right_comm]; rfl
  | case9 seen closed rest ih => rw [← ih, Nat.add_right_comm]; rfl
  | case10 seen closed rest notSlash ih =>
    rw [← ih, Nat.add_right_comm]
    cases rest with
    | nil => rfl
    | cons c rest => exact gapScan_star (fun same => notSlash rest (by rw [same])) _ _ _
  | case11 seen closed c rest notStar ih =>
    rw [← ih, Nat.add_right_comm]
    exact gapScan_inBlock notStar _ _ _

/-- Outside of block comments, the comments that were passed do not matter any more. -/
theorem gapScan_closed {state : GapState} (outside : state ≠ .block) (seen closed closed' : Nat)
    (s : List Char) : gapScan state seen closed s = gapScan state seen closed' s := by
  fun_induction gapScan state seen closed s generalizing closed' with
  | case1 => exact absurd rfl outside
  | case2 state seen closed => cases state <;> first | rfl | exact absurd rfl outside
  | case3 seen closed rest ih => exact ih nofun closed'
  | case4 => rfl
  | case5 seen closed rest line block => exact (gapScan_slash line block _ _).symm
  | case6 seen closed c rest notSlash space ih =>
    rw [gapScan_blank notSlash, if_pos space]
    exact ih outside closed'
  | case7 seen closed c rest notSlash space => rw [gapScan_blank notSlash, if_neg space]
  | case8 seen closed c rest ih =>
    refine ih ?_ closed'
    split <;> nofun
  | case9 => exact absurd rfl outside
  | case10 => exact absurd rfl outside
  | case11 => exact absurd rfl outside

/-- A text behind which a scan stands between comments adds its length to the gap. -/
theorem gapLength_append {g : List Char} (h : gapState .blank g = some .blank) (s : List Char) :
    gapLength (g ++ s) = g.length + gapLength s := by
  have outside : GapState.blank ≠ .block := nofun
  obtain ⟨closed, same⟩ := gapScan_append h outside 0 0 s
  have counts := gapScan_add .blank 0 0 g.length s
  rw [gapLength, same, gapScan_closed outside _ _ (0 + g.length), counts, gapLength, Nat.add_comm]

/-- At the end of a text, a line comment is a gap as well. -/
theorem gapLength_eq_length {state : GapState} {g : List Char}
    (h : gapState .blank g = some state) (outside : state ≠ .block) :
    gapLength g = g.length := by
  obtain ⟨closed, same⟩ := gapScan_append h outside 0 0 []
  rw [List.append_nil] at same
  rw [gapLength, same, Nat.zero_add]
  cases state <;> first | rfl | exact absurd rfl outside

/-! ## What a gap ends with -/

/-- A scan only goes forward, apart from a block comment that never closes. -/
theorem le_gapScan (state : GapState) (seen closed : Nat) (s : List Char) :
    (state ≠ .block → seen ≤ gapScan state seen closed s) ∧
      (state = .block →
        gapScan state seen closed s = closed ∨ seen < gapScan state seen closed s) := by
  fun_induction gapScan state seen closed s with
  | case1 => exact ⟨absurd rfl, fun _ => .inl rfl⟩
  | case2 state seen closed outside =>
    exact ⟨fun _ => Nat.le_refl _, fun block => absurd block outside⟩
  | case3 seen closed rest ih =>
    exact ⟨fun _ => Nat.le_trans (Nat.le_add_right ..) (ih.1 nofun), nofun⟩
  | case4 seen closed rest ih =>
    refine ⟨fun _ => ?_, nofun⟩
    rcases ih.2 rfl with same | more <;> omega
  | case5 => exact ⟨fun _ => Nat.le_refl _, nofun⟩
  | case6 seen closed c rest _ _ ih =>
    exact ⟨fun _ => Nat.le_trans (Nat.le_add_right ..) (ih.1 nofun), nofun⟩
  | case7 => exact ⟨fun _ => Nat.le_refl _, nofun⟩
  | case8 seen closed c rest ih =>
    have outside : (if stopsComment c then .blank else .line : GapState) ≠ .block := by
      split <;> nofun
    exact ⟨fun _ => Nat.le_trans (Nat.le_add_right ..) (ih.1 outside), nofun⟩
  | case9 seen closed rest ih =>
    exact ⟨absurd rfl, fun _ => .inr (Nat.lt_of_lt_of_le (by omega) (ih.1 nofun))⟩
  | case10 seen closed rest _ ih =>
    refine ⟨absurd rfl, fun _ => ?_⟩
    rcases ih.2 rfl with same | more <;> omega
  | case11 seen closed c rest _ ih =>
    refine ⟨absurd rfl, fun _ => ?_⟩
    rcases ih.2 rfl with same | more <;> omega

/-- A scan that ends in front of a character stands between comments. -/
theorem blank_of_gapScan {state : GapState} {seen closed : Nat} {a : Char} {s : List Char}
    (before : state = .block → closed < seen) (h : gapScan state seen closed (a :: s) = seen) :
    state = .blank := by
  cases state with
  | blank => rfl
  | line =>
    have outside : (if stopsComment a then .blank else .line : GapState) ≠ .block := by
      split <;> nofun
    have forward := (le_gapScan _ (seen + 1) closed s).1 outside
    have same : gapScan (if stopsComment a then .blank else .line) (seen + 1) closed s = seen := h
    omega
  | block =>
    have inside := (le_gapScan .block seen closed (a :: s)).2 rfl
    have less := before rfl
    omega

/-- No scan ends behind a slash that opens no comment, nor within the opening of one. -/
theorem gapScan_slash_ne (seen closed : Nat) (a : Char) (s : List Char) :
    gapScan .blank seen closed ('/' :: a :: s) ≠ seen + 1 := by
  intro h
  by_cases slash : a = '/'
  · subst slash
    have forward := (le_gapScan .line (seen + 2) closed s).1 nofun
    have same : gapScan .line (seen + 2) closed s = seen + 1 := h
    omega
  · by_cases star : a = '*'
    · subst star
      have inside := (le_gapScan .block (seen + 2) seen s).2 rfl
      have same : gapScan .block (seen + 2) seen s = seen + 1 := h
      omega
    · have none : gapScan .blank seen closed ('/' :: a :: s) = seen :=
        gapScan_slash (by simpa using slash) (by simpa using star) _ _
      omega

/-- No scan ends behind a star in a block comment. -/
theorem gapScan_star_ne {seen closed : Nat} (before : closed < seen) (a : Char) (s : List Char) :
    gapScan .block seen closed ('*' :: a :: s) ≠ seen + 1 := by
  intro h
  by_cases slash : a = '/'
  · subst slash
    have forward := (le_gapScan .blank (seen + 2) closed s).1 nofun
    have same : gapScan .blank (seen + 2) closed s = seen + 1 := h
    omega
  · have inside := (le_gapScan .block (seen + 1) closed (a :: s)).2 rfl
    rw [gapScan_star slash] at h
    omega

/-- In front of something that is no gap, a scan stands between comments. -/
theorem gapState_of_gapScan {state : GapState} {seen closed : Nat} {g s : List Char}
    (some' : s ≠ []) (before : state = .block → closed < seen)
    (h : gapScan state seen closed (g ++ s) = seen + g.length) :
    gapState state g = some .blank := by
  obtain ⟨a, s, rfl⟩ := List.exists_cons_of_ne_nil some'
  fun_induction gapState state g generalizing seen closed with
  | case1 state => exact congrArg some (blank_of_gapScan before h)
  | case2 rest ih =>
    have same : gapScan .line (seen + 2) closed (rest ++ a :: s) = seen + (rest.length + 1 + 1) := h
    exact ih nofun (same.trans (by omega))
  | case3 rest ih =>
    have same : gapScan .block (seen + 2) seen (rest ++ a :: s) = seen + (rest.length + 1 + 1) := h
    exact ih (fun _ => Nat.lt_add_of_pos_right (by decide)) (same.trans (by omega))
  | case4 rest line block =>
    cases rest with
    | nil => exact absurd h (gapScan_slash_ne seen closed a s)
    | cons c rest =>
      have none : gapScan .blank seen closed ('/' :: c :: rest ++ a :: s) = seen :=
        gapScan_slash (fun more same => line rest (by rw [(List.cons.inj same).1]))
          (fun more same => block rest (by rw [(List.cons.inj same).1])) _ _
      rw [none] at h
      exact absurd h (by simp)
  | case5 c rest notSlash space ih =>
    rw [List.cons_append, gapScan_blank notSlash, if_pos space, List.length_cons] at h
    exact ih nofun (h.trans (by omega))
  | case6 c rest notSlash space =>
    rw [List.cons_append, gapScan_blank notSlash, if_neg space, List.length_cons] at h
    omega
  | case7 c rest ih =>
    have same : gapScan (if stopsComment c then .blank else .line) (seen + 1) closed
      (rest ++ a :: s) = seen + (rest.length + 1) := h
    refine ih (fun block => ?_) (same.trans (by omega))
    split at block <;> cases block
  | case8 rest ih =>
    have same : gapScan .blank (seen + 2) closed (rest ++ a :: s) =
      seen + (rest.length + 1 + 1) := h
    exact ih nofun (same.trans (by omega))
  | case9 rest notSlash ih =>
    cases rest with
    | nil => exact absurd h (gapScan_star_ne (before rfl) a s)
    | cons c rest =>
      have other : c ≠ '/' := fun same => notSlash rest (by rw [same])
      rw [List.cons_append, List.cons_append, gapScan_star other, List.length_cons] at h
      exact ih (fun _ => Nat.lt_succ_of_lt (before rfl)) (h.trans (by omega))
  | case10 c rest notStar ih =>
    rw [List.cons_append, gapScan_inBlock notStar, List.length_cons] at h
    exact ih (fun _ => Nat.lt_succ_of_lt (before rfl)) (h.trans (by omega))

/-- Behind a gap there is none. -/
theorem gapLength_drop (s : List Char) : gapLength (s.drop (gapLength s)) = 0 := by
  cases left : s.drop (gapLength s) with
  | nil => rfl
  | cons c rest =>
    have there : s.drop (gapLength s) ≠ [] := by simp [left]
    have whole := List.take_append_drop (gapLength s) s
    have count : (s.take (gapLength s)).length = gapLength s := by
      have short : ¬s.length ≤ gapLength s := fun past => there (List.drop_eq_nil_iff.mpr past)
      exact List.length_take_of_le (Nat.le_of_not_le short)
    have scan : gapScan .blank 0 0 (s.take (gapLength s) ++ s.drop (gapLength s)) =
        0 + (s.take (gapLength s)).length := by
      rw [whole, count, Nat.zero_add]
      rfl
    have sum := gapLength_append (gapState_of_gapScan there nofun scan) (s.drop (gapLength s))
    rw [whole, count] at sum
    rw [← left]
    omega

/-! ## Cuts -/

/-- One character of a text moves the scan on, together with the one behind it where a comment opens
or closes. -/
theorem gapState_cons (state : GapState) (c : Char) (rest : List Char) :
    gapState state (c :: rest) =
      match state with
      | .blank =>
        if c = '/' then
          if rest.head? = some '/' then gapState .line rest.tail
          else if rest.head? = some '*' then gapState .block rest.tail else none
        else if isSpace c then gapState .blank rest else none
      | .line => gapState (if stopsComment c then .blank else .line) rest
      | .block =>
        if c = '*' ∧ rest.head? = some '/' then gapState .blank rest.tail
        else gapState .block rest := by
  conv => lhs; unfold gapState
  split <;> try contradiction
  · next same =>
    obtain ⟨rfl, rfl⟩ := List.cons.inj same
    split
    · rfl
    · rfl
    · next line block =>
      cases rest with
      | nil => rfl
      | cons d rest => simp_all
  · next other same =>
    obtain ⟨rfl, rfl⟩ := List.cons.inj same
    simp_all
  · next same =>
    obtain ⟨rfl, rfl⟩ := List.cons.inj same
    rfl
  · next same =>
    obtain ⟨rfl, rfl⟩ := List.cons.inj same
    split
    · rfl
    · next open' =>
      cases rest with
      | nil => rfl
      | cons d rest => simp_all
  · next other same =>
    obtain ⟨rfl, rfl⟩ := List.cons.inj same
    simp_all

theorem head?_ne_of_ne_cons {rest : List Char} {d : Char} (h : ∀ more, rest ≠ d :: more) :
    rest.head? ≠ some d := fun starts =>
  (List.head?_eq_some_iff.mp starts).elim h

theorem gapState_star {rest : List Char} (h : ∀ more, rest ≠ '/' :: more) :
    gapState .block ('*' :: rest) = gapState .block rest :=
  (gapState_cons ..).trans (if_neg fun closes => head?_ne_of_ne_cons h closes.2)

theorem gapState_inBlock {c : Char} (h : c ≠ '*') (rest : List Char) :
    gapState .block (c :: rest) = gapState .block rest :=
  (gapState_cons ..).trans (if_neg fun closes => h closes.1)

theorem gapState_blank {c : Char} (h : c ≠ '/') (rest : List Char) :
    gapState .blank (c :: rest) = if isSpace c then gapState .blank rest else none :=
  (gapState_cons ..).trans (if_neg h)

theorem gapState_inLine (c : Char) (rest : List Char) : gapState .line (c :: rest) =
    gapState (if stopsComment c then .blank else .line) rest :=
  gapState_cons ..

theorem gapState_slash {rest : List Char} (line : ∀ more, rest ≠ '/' :: more)
    (block : ∀ more, rest ≠ '*' :: more) : gapState .blank ('/' :: rest) = none := by
  rw [gapState_cons]
  exact (if_neg (head?_ne_of_ne_cons line)).trans (if_neg (head?_ne_of_ne_cons block))

theorem gapState_append {state state' : GapState} {g : List Char}
    (h : gapState state g = some state') (outside : state' ≠ .block) (s : List Char) :
    gapState state (g ++ s) = gapState state' s := by
  fun_induction gapState state g with
  | case1 state =>
    obtain rfl := Option.some.inj h
    rfl
  | case2 rest ih => exact ih h
  | case3 rest ih => exact ih h
  | case4 => cases h
  | case5 c rest notSlash space ih =>
    rw [List.cons_append, gapState_blank notSlash, if_pos space]
    exact ih h
  | case6 => cases h
  | case7 c rest ih =>
    rw [List.cons_append, gapState_inLine]
    exact ih h
  | case8 rest ih => exact ih h
  | case9 rest notSlash ih =>
    cases rest with
    | nil => exact absurd (Option.some.inj h).symm outside
    | cons c rest =>
      have other : c ≠ '/' := fun same => notSlash rest (by rw [same])
      rw [List.cons_append, List.cons_append, gapState_star (by simpa using other)]
      exact ih h
  | case10 c rest notStar ih =>
    rw [List.cons_append, gapState_inBlock notStar]
    exact ih h

theorem ne_of_isAsciiBlank {c d : Char} (blank : isAsciiBlank c = true)
    (shown : isAsciiBlank d = false) : c ≠ d := by
  rintro rfl
  rw [blank] at shown
  cases shown

/-- Blanks close no comment. -/
theorem gapState_block {s : List Char} (blank : ∀ c ∈ s, isAsciiBlank c = true) :
    gapState .block s = some .block := by
  induction s with
  | nil => rfl
  | cons c s ih =>
    obtain ⟨here, later⟩ := List.forall_mem_cons.mp blank
    rw [gapState_inBlock (ne_of_isAsciiBlank here rfl)]
    exact ih later

theorem gapState_blanks {s : List Char} (blank : ∀ c ∈ s, isAsciiBlank c = true) :
    gapState .blank s = some .blank := by
  induction s with
  | nil => rfl
  | cons c s ih =>
    obtain ⟨here, later⟩ := List.forall_mem_cons.mp blank
    rw [gapState_blank (ne_of_isAsciiBlank here rfl), if_pos (isSpace_of_isAsciiBlank here)]
    exact ih later

/-- Behind blanks that end a gap, a scan stands between comments; in front of them it may stand in a
line comment, if they end the line. -/
theorem gapState_of_blank {state : GapState} {g s : List Char}
    (blank : ∀ c ∈ s, isAsciiBlank c = true) (h : gapState state (g ++ s) = some .blank) :
    ∃ state', state' ≠ .block ∧ gapState state g = some state' := by
  have starts {d : Char} (shown : isAsciiBlank d = false) (more : List Char) : s ≠ d :: more := by
    rintro rfl
    exact ne_of_isAsciiBlank (blank d List.mem_cons_self) shown rfl
  fun_induction gapState state g with
  | case1 state =>
    refine ⟨state, ?_, rfl⟩
    rintro rfl
    rw [List.nil_append, gapState_block blank] at h
    cases h
  | case2 rest ih => exact ih h
  | case3 rest ih => exact ih h
  | case4 rest line block =>
    have none : gapState .blank ('/' :: (rest ++ s)) = none := by
      cases rest with
      | nil => exact gapState_slash (starts rfl) (starts rfl)
      | cons c rest =>
        exact gapState_slash (fun more same => line rest (by rw [(List.cons.inj same).1]))
          (fun more same => block rest (by rw [(List.cons.inj same).1]))
    rw [List.cons_append, none] at h
    cases h
  | case5 c rest notSlash space ih =>
    rw [List.cons_append, gapState_blank notSlash, if_pos space] at h
    exact ih h
  | case6 c rest notSlash space =>
    rw [List.cons_append, gapState_blank notSlash, if_neg space] at h
    cases h
  | case7 c rest ih =>
    rw [List.cons_append, gapState_inLine] at h
    exact ih h
  | case8 rest ih => exact ih h
  | case9 rest notSlash ih =>
    have goesOn : gapState .block ('*' :: (rest ++ s)) = gapState .block (rest ++ s) := by
      cases rest with
      | nil => exact gapState_star (starts rfl)
      | cons c rest =>
        exact gapState_star fun more same => notSlash rest (by rw [(List.cons.inj same).1])
    rw [List.cons_append, goesOn] at h
    exact ih h
  | case10 c rest notStar ih =>
    rw [List.cons_append, gapState_inBlock notStar] at h
    exact ih h

/-- A gap from which the blanks on its last lines are taken away. -/
theorem gapState_line {g s : List Char} (blank : ∀ c ∈ s, isAsciiBlank c = true)
    (h : gapState .blank (g ++ '\n' :: s) = some .blank) :
    gapState .blank (g ++ ['\n']) = some .blank := by
  have blanks : ∀ c ∈ '\n' :: s, isAsciiBlank c = true := List.forall_mem_cons.mpr ⟨rfl, blank⟩
  obtain ⟨state, outside, front⟩ := gapState_of_blank blanks h
  rw [gapState_append front outside]
  cases state with
  | blank => rfl
  | line => rfl
  | block => exact absurd rfl outside

end ModuleRepair.Script
