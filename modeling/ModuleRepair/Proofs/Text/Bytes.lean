import ModuleRepair.Text.Blank
import ModuleRepair.Text.Utf8

/-!
# Characters and their bytes

A character of ASCII is one byte; all bytes of another one are beyond ASCII. So line feeds and white
space are the same among the bytes of a text as among its characters, and a text can be cut beside
every run of ASCII bytes (`exists_cut_behind`, `exists_cut_front`).
-/
namespace ModuleRepair.Text

/-- A character is one byte of ASCII, or all its bytes are beyond ASCII. -/
theorem utf8EncodeChar_cases (c : Char) :
    c.toNat < 0x80 ∧ String.utf8EncodeChar c = [UInt8.ofNat c.toNat] ∨
      0x80 ≤ c.toNat ∧ ∀ b ∈ String.utf8EncodeChar c, 0x80 ≤ b.toNat := by
  have code : c.val.toNat = c.toNat := rfl
  rw [String.utf8EncodeChar, code]
  by_cases ascii : c.toNat ≤ 127
  · exact .inl ⟨Nat.lt_succ_of_le ascii, by simp [ascii]⟩
  · refine .inr ⟨by omega, ?_⟩
    -- Each form is a list of start and continuation bytes, all of them with an upper bit.
    simp only [ascii, if_false]
    split
    · simp [UInt8.toNat_ofNat']
      omega
    · split
      · simp [UInt8.toNat_ofNat']
        omega
      · simp [UInt8.toNat_ofNat']
        omega

section

variable {c : Char} {b : UInt8}

/-- A class of ASCII characters is the same among bytes. -/
theorem class_of_mem {p : UInt8 → Bool} {q : Char → Bool}
    (ascii : ∀ n < 0x80, p (UInt8.ofNat n) = q (Char.ofNat n))
    (beyond : ∀ b : UInt8, 0x80 ≤ b.toNat → p b = false)
    (beyond' : ∀ c : Char, 0x80 ≤ c.toNat → q c = false) (h : b ∈ String.utf8EncodeChar c) :
    p b = q c := by
  rcases utf8EncodeChar_cases c with ⟨small, one⟩ | ⟨large, all⟩
  · rw [one, List.mem_singleton] at h
    rw [h, ascii c.toNat small, Char.ofNat_toNat]
  · rw [beyond b (all b h), beyond' c large]

theorem isBlankByte_of_mem (h : b ∈ String.utf8EncodeChar c) : isBlankByte b = isAsciiBlank c := by
  refine class_of_mem (by decide) ?_ ?_ h
  · intro b large
    simp only [isBlankByte, Bool.or_eq_false_iff, beq_eq_false_iff_ne, Bool.and_eq_false_iff,
      decide_eq_false_iff_not, UInt8.le_iff_toNat_le]
    refine ⟨?_, .inr ?_⟩
    · rintro rfl
      exact absurd large (by decide)
    · exact fun small => absurd (Nat.le_trans large small) (by decide)
  · intro c large
    simp only [isAsciiBlank, Bool.or_eq_false_iff, beq_eq_false_iff_ne, Bool.and_eq_false_iff,
      decide_eq_false_iff_not]
    refine ⟨?_, .inr (by omega)⟩
    rintro rfl
    exact absurd large (by decide)

theorem isFeed_of_mem (h : b ∈ String.utf8EncodeChar c) : (b == lineFeed) = (c == '\n') := by
  refine class_of_mem (p := (· == lineFeed)) (q := (· == '\n')) (by decide) ?_ ?_ h
  · rintro b large
    refine beq_eq_false_iff_ne.mpr ?_
    rintro rfl
    exact absurd large (by decide)
  · rintro c large
    refine beq_eq_false_iff_ne.mpr ?_
    rintro rfl
    exact absurd large (by decide)

end

theorem decode_toUTF8 (s : String) : decode s.toUTF8 = .ok s := by
  have valid : String.fromUTF8? s.toUTF8 = some s := dif_pos s.isValidUTF8
  rw [decode, valid]

/-! ## Texts -/

@[simp] theorem bytesOf_nil : bytesOf [] = [] := rfl

@[simp] theorem bytesOf_cons (c : Char) (s : List Char) :
    bytesOf (c :: s) = String.utf8EncodeChar c ++ bytesOf s := rfl

@[simp] theorem bytesOf_append (s t : List Char) : bytesOf (s ++ t) = bytesOf s ++ bytesOf t :=
  List.flatMap_append

@[simp] theorem length_bytesOf (s : List Char) : (bytesOf s).length = byteSize s := by
  induction s with
  | nil => rfl
  | cons c s ih =>
    rw [bytesOf_cons, List.length_append, String.length_utf8EncodeChar, ih, byteSize_cons]

theorem take_bytesOf (s t : List Char) : (bytesOf (s ++ t)).take (byteSize s) = bytesOf s := by
  rw [bytesOf_append, ← length_bytesOf, List.take_left]

theorem drop_bytesOf (s t : List Char) : (bytesOf (s ++ t)).drop (byteSize s) = bytesOf t := by
  rw [bytesOf_append, ← length_bytesOf, List.drop_left]

variable {s : List Char} {kept left right rest : List UInt8}

theorem blank_bytesOf_iff :
    (∀ b ∈ bytesOf s, isBlankByte b = true) ↔ ∀ c ∈ s, isAsciiBlank c = true := by
  induction s with
  | nil => simp
  | cons c s ih =>
    rw [bytesOf_cons, List.forall_mem_append, ih, List.forall_mem_cons]
    refine and_congr_left fun _ => ⟨fun blank => ?_, fun blank b there => ?_⟩
    · obtain ⟨b, there⟩ := List.exists_mem_of_ne_nil _ (String.utf8EncodeChar_ne_nil (c := c))
      rw [← isBlankByte_of_mem there]
      exact blank b there
    · rw [isBlankByte_of_mem there]
      exact blank

theorem lineFeed_mem_bytesOf : lineFeed ∈ bytesOf s ↔ '\n' ∈ s := by
  constructor
  · intro there
    obtain ⟨c, here, inside⟩ := List.mem_flatMap.mp there
    have feed : (lineFeed == lineFeed) = (c == '\n') := isFeed_of_mem inside
    have same : c = '\n' := by simpa using feed
    exact same ▸ here
  · intro there
    exact List.mem_flatMap.mpr ⟨'\n', there, by decide⟩

theorem bytesOf_eq_nil : bytesOf s = [] ↔ s = [] := by
  cases s with
  | nil => simp
  | cons c s => simp [String.utf8EncodeChar_ne_nil]

/-- A text whose bytes begin with a line feed begins with one. -/
theorem head?_of_feed {bytes : List UInt8} (feed : bytesOf s = lineFeed :: bytes) :
    s.head? = some '\n' := by
  cases s with
  | nil => cases feed
  | cons c s =>
    obtain ⟨b, more, split⟩ := List.exists_cons_of_ne_nil (String.utf8EncodeChar_ne_nil (c := c))
    have same := isFeed_of_mem (b := b) (c := c) (by simp [split])
    rw [bytesOf_cons, split] at feed
    have first : b = lineFeed := (List.cons.inj feed).1
    simpa [first] using same

theorem ascii_of_blank {b : UInt8} (blank : isBlankByte b = true) : b.toNat < 0x80 := by
  simp only [isBlankByte, Bool.or_eq_true, beq_iff_eq, Bool.and_eq_true, decide_eq_true_eq,
    UInt8.le_iff_toNat_le] at blank
  rcases blank with rfl | ⟨-, small⟩
  · decide
  · exact Nat.lt_of_le_of_lt small (by decide)

/-- A character with a byte of ASCII is that byte. -/
theorem utf8EncodeChar_of_ascii {c : Char} {b : UInt8} (h : b ∈ String.utf8EncodeChar c)
    (ascii : b.toNat < 0x80) : String.utf8EncodeChar c = [b] := by
  rcases utf8EncodeChar_cases c with ⟨-, one⟩ | ⟨-, all⟩
  · rw [one, List.mem_singleton] at h
    rw [one, h]
  · exact absurd (all b h) (by omega)

/-- A text whose bytes end with bytes of ASCII can be cut in front of them. -/
theorem exists_cut_behind (ascii : ∀ b ∈ left, b.toNat < 0x80) (h : bytesOf s = kept ++ left) :
    ∃ a b, s = a ++ b ∧ bytesOf a = kept ∧ bytesOf b = left := by
  induction s generalizing kept with
  | nil =>
    obtain ⟨rfl, rfl⟩ := List.append_eq_nil_iff.mp h.symm
    exact ⟨[], [], rfl, rfl, rfl⟩
  | cons c s ih =>
    rw [bytesOf_cons] at h
    rcases List.append_eq_append_iff.mp h with ⟨more, rfl, later⟩ | ⟨more, here, rfl⟩
    · obtain ⟨a, b, rfl, rfl, rfl⟩ := ih later
      exact ⟨c :: a, b, rfl, rfl, rfl⟩
    · rcases List.eq_nil_or_concat more with rfl | ⟨front, b, rfl⟩
      · exact ⟨[c], s, rfl, by simpa using here, rfl⟩
      · -- The last byte of the character is one of ASCII, and so the only one.
        have last : b ∈ String.utf8EncodeChar c := by simp [here]
        have one := utf8EncodeChar_of_ascii last (ascii b (by simp))
        have nothing : kept = [] ∧ front = [] := by
          have length := congrArg List.length (here.symm.trans one)
          simp only [List.length_append, List.length_concat, List.length_singleton] at length
          exact ⟨List.length_eq_zero_iff.mp (by omega), List.length_eq_zero_iff.mp (by omega)⟩
        obtain ⟨rfl, rfl⟩ := nothing
        exact ⟨[], c :: s, rfl, rfl, by rw [bytesOf_cons, one]; rfl⟩

/-- A text whose bytes start with bytes of ASCII can be cut behind them. -/
theorem exists_cut_front (ascii : ∀ b ∈ right, b.toNat < 0x80) (h : bytesOf s = right ++ rest) :
    ∃ a b, s = a ++ b ∧ bytesOf a = right ∧ bytesOf b = rest := by
  induction right generalizing s with
  | nil => exact ⟨[], s, rfl, rfl, h⟩
  | cons b right ih =>
    obtain ⟨small, others⟩ := List.forall_mem_cons.mp ascii
    cases s with
    | nil => cases h
    | cons c s =>
      rw [bytesOf_cons] at h
      obtain ⟨first, more, split⟩ :=
        List.exists_cons_of_ne_nil (String.utf8EncodeChar_ne_nil (c := c))
      rw [split, List.cons_append, List.cons_append, List.cons.injEq] at h
      obtain ⟨rfl, later⟩ := h
      have one := utf8EncodeChar_of_ascii (c := c) (by rw [split]; exact List.mem_cons_self) small
      obtain rfl : more = [] := (List.cons.inj (split.symm.trans one)).2
      obtain ⟨a, b, rfl, rfl, rfl⟩ := ih others later
      exact ⟨c :: a, b, rfl, by rw [bytesOf_cons, one]; rfl, rfl⟩

end ModuleRepair.Text
