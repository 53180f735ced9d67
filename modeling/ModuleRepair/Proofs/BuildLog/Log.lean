import ModuleRepair.BuildLog.Basic
import ModuleRepair.Proofs.Diagnostic.Messages
import ModuleRepair.Proofs.Distinct

/-!
# Reports in a log

A report is read wherever it stands, and whatever is between the reports (`reports_logText`): a match
that started in front of a report would need its words there. What is read stands in the log
(`stands_of_mem_reports`).
-/
namespace ModuleRepair.BuildLog

open ModuleRepair.Text

/-- The words between the name and the specifier of a report. -/
def phrase : List Char := " is not exported from ".toList

/-- A quotation mark, or none. -/
def IsOptionalQuote (s : List Char) : Prop :=
  s = [] ∨ ∃ q, isQuote q = true ∧ s = [q]

theorem IsOptionalQuote.length_le {s : List Char} (h : IsOptionalQuote s) : s.length ≤ 1 := by
  rcases h with rfl | ⟨q, -, rfl⟩ <;> simp

theorem dropQuote_split (s : List Char) : ∃ a, IsOptionalQuote a ∧ s = a ++ dropQuote s := by
  cases s with
  | nil => exact ⟨[], .inl rfl, rfl⟩
  | cons c rest =>
    by_cases quote : isQuote c = true
    · exact ⟨[c], .inr ⟨c, quote, rfl⟩, by simp [dropQuote, quote]⟩
    · exact ⟨[], .inl rfl, by simp [dropQuote, quote]⟩

theorem dropQuote_quote {q : Char} (h : isQuote q = true) (rest : List Char) :
    dropQuote (q :: rest) = rest := by
  simp [dropQuote, h]

/-- A text between quotation marks. -/
def IsQuoted (s : List Char) : Prop :=
  s ≠ [] ∧ ∀ c ∈ s, isQuote c = false

/-- A report at the front of a text. Its name may lack a quotation mark at either end. -/
def Matches (s : List Char) (m : Mismatch) (rest : List Char) : Prop :=
  ∃ before between opening closing,
    s = (before ++ m.name.toList ++ between) ++
      (phrase ++ opening :: (m.specifier.toList ++ closing :: rest)) ∧
    (IsOptionalQuote before ∧ IsOptionalQuote between) ∧
    Fix.IsIdentifier m.name.toList ∧ IsQuoted m.specifier.toList

theorem matches_of_report? {s rest : List Char} {m : Mismatch} (h : report? s = some (m, rest)) :
    Matches s m rest := by
  simp only [report?, Option.bind_eq_bind, Option.bind_eq_some_iff] at h
  obtain ⟨⟨name, s₁⟩, isName, s₂, isPhrase, specified⟩ := h
  dsimp only at specified
  split at specified
  · cases specified
  · next q s₂ =>
    split at specified
    · cases specified
    · split at specified
      · cases specified
      · cases specified
      · next specifier closing after some cut =>
        cases specified
        obtain ⟨before, optional, text⟩ := dropQuote_split s
        obtain ⟨between, optional', text'⟩ := dropQuote_split s₁
        obtain ⟨named, identifier, -⟩ := Fix.identifier?_eq_some_iff.mp isName
        obtain ⟨rfl, inside, -⟩ := span_eq_iff.mp cut
        have worded : dropQuote s₁ = phrase ++ _ := afterStart?_eq_some_iff.mp isPhrase
        have whole : s = (before ++ name ++ between) ++
            (phrase ++ q :: (specifier ++ closing :: rest)) := by
          rw [text, named, text', worded]
          simp only [List.append_assoc]
        have some' : specifier ≠ [] := some
        exact ⟨before, between, q, closing, by simpa using whole, ⟨optional, optional'⟩,
          by simpa using identifier, by simpa using some', by simpa using inside⟩

/-! ## A report that is printed -/

/-- A report as a bundler prints it: a mismatch, and the quotation marks around its name and its
specifier. -/
structure Printed where
  mismatch : Mismatch
  nameOpens : Char
  nameCloses : Char
  specifierOpens : Char
  specifierCloses : Char

namespace Printed

def text (r : Printed) : List Char :=
  r.nameOpens :: r.mismatch.name.toList ++ r.nameCloses :: phrase ++
    r.specifierOpens :: r.mismatch.specifier.toList ++ [r.specifierCloses]

structure WellFormed (r : Printed) : Prop where
  name : Fix.isAsciiIdentifier r.mismatch.name = true
  specifier : Fix.Quotable r.mismatch.specifier
  nameOpens : isQuote r.nameOpens = true
  nameCloses : isQuote r.nameCloses = true
  specifierOpens : isQuote r.specifierOpens = true
  specifierCloses : isQuote r.specifierCloses = true

end Printed

theorem isQuote_iff {c : Char} : isQuote c = true ↔ c = '"' ∨ c = '\x27' := by
  simp [isQuote]

theorem not_continues_of_isQuote {q : Char} (h : isQuote q = true) :
    continuesIdentifier q = false := by
  rcases isQuote_iff.mp h with rfl | rfl <;> decide

theorem report?_reads {r : Printed} (h : r.WellFormed) (rest : List Char) :
    report? (r.text ++ rest) = some (r.mismatch, rest) := by
  obtain ⟨⟨name, specifier⟩, q₁, q₂, q₃, q₄⟩ := r
  obtain ⟨hn, hs, quote₁, quote₂, quote₃, quote₄⟩ := h
  dsimp only at hn hs quote₁ quote₂ quote₃ quote₄
  have whole : Printed.text ⟨⟨name, specifier⟩, q₁, q₂, q₃, q₄⟩ ++ rest =
      q₁ :: (name.toList ++ q₂ :: (phrase ++ q₃ :: (specifier.toList ++ q₄ :: rest))) := by
    simp only [Printed.text, List.append_assoc, List.cons_append, List.nil_append]
  have named := Fix.identifier?_reads hn (not_continues_of_isQuote quote₂)
    (phrase ++ q₃ :: (specifier.toList ++ q₄ :: rest))
  have worded : afterStart? " is not exported from ".toList
      (phrase ++ q₃ :: (specifier.toList ++ q₄ :: rest)) =
        some (q₃ :: (specifier.toList ++ q₄ :: rest)) := afterStart?_append phrase _
  have inside : ∀ c ∈ specifier.toList, (!isQuote c) = true := by
    intro c hc
    have neither : ¬isQuote c = true := fun quote => by
      rcases isQuote_iff.mp quote with rfl | rfl
      · exact hs.noDouble hc
      · exact hs.noSingle hc
    simpa using neither
  have cut : (specifier.toList ++ q₄ :: rest).span (!isQuote ·) =
      (specifier.toList, q₄ :: rest) :=
    span_eq_iff.mpr ⟨rfl, inside, by simpa using quote₄⟩
  obtain ⟨c, letters, same⟩ : ∃ c letters, specifier.toList = c :: letters :=
    List.exists_cons_of_ne_nil (by simpa using hs.ne_empty)
  have back : String.ofList (c :: letters) = specifier := by rw [← same, String.ofList_toList]
  rw [whole, report?, dropQuote_quote quote₁, named]
  simp only [Option.bind_eq_bind, Option.bind_some, dropQuote_quote quote₂, worded, quote₃,
    Bool.not_true, Bool.false_eq_true, if_false, cut]
  simp only [same, back, String.ofList_toList]

/-! ## No report in between -/

/-- The words of reports are in none of it. -/
def IsNoise (s : List Char) : Prop :=
  ¬phrase <:+: s

theorem Matches.not_isNoise {s rest : List Char} {m : Mismatch} (h : Matches s m rest) :
    ¬IsNoise s := by
  obtain ⟨before, between, opening, closing, rfl, -⟩ := h
  exact fun noise => noise ⟨_, _, List.append_assoc _ _ _⟩

theorem IsNoise.of_suffix {s t : List Char} (h : IsNoise s) (ht : t <:+ s) : IsNoise t :=
  fun there => h (there.trans ht.isInfix)

theorem IsNoise.nowhere {s : List Char} (h : IsNoise s) : FitsNowhere report? s [] := by
  intro t ht _
  refine Option.eq_none_iff_forall_ne_some.mpr fun ⟨m, rest⟩ found => ?_
  rw [List.append_nil] at found
  exact (matches_of_report? found).not_isNoise (h.of_suffix ht)

/-- A quotation mark behind a name is the last one in front of the words of a report. -/
theorem nothing_behind_quote {before name between t more : List Char} {q : Char}
    (optional : IsOptionalQuote before) (optional' : IsOptionalQuote between) (name' : q ∉ name)
    (some : t ≠ []) (h : before ++ name ++ between = t ++ q :: more) : more = [] := by
  obtain ⟨front, named⟩ : ∃ front, name ++ between = front ++ q :: more := by
    rcases optional with rfl | ⟨opening, -, rfl⟩
    · exact ⟨t, h⟩
    · obtain ⟨c, t, rfl⟩ := List.exists_cons_of_ne_nil some
      exact ⟨t, (List.cons.inj h).2⟩
  have short : ∀ {front}, between = front ++ q :: more → more = [] := by
    rintro front rfl
    have := optional'.length_le
    simp only [List.length_append, List.length_cons] at this
    exact List.length_eq_zero_iff.mp (by omega)
  rcases List.append_eq_append_iff.mp named with ⟨front, -, behind⟩ | ⟨front, rfl, behind⟩
  · exact short behind
  · cases front with
    | nil =>
      have whole : between = [] ++ q :: more := behind.symm
      exact short whole
    | cons d front =>
      obtain ⟨rfl, -⟩ := List.cons.inj behind
      exact absurd (by simp) name'

theorem not_isQuote_of_isIdentifier {name : List Char} (h : Fix.IsIdentifier name) {q : Char}
    (quote : isQuote q = true) : q ∉ name := by
  obtain ⟨c, rest, rfl, starts, continues⟩ := h
  intro there
  rcases List.mem_cons.mp there with rfl | there
  · rcases isQuote_iff.mp quote with rfl | rfl <;> cases starts
  · have goesOn := continues q there
    rw [not_continues_of_isQuote quote] at goesOn
    cases goesOn

/-- No report starts in front of a quotation mark with noise before it, when no space is behind. -/
theorem IsNoise.nowhere_before_quote {noise rest : List Char} {q c : Char} (h : IsNoise noise)
    (quote : isQuote q = true) (letter : c ≠ ' ') :
    FitsNowhere report? noise (q :: c :: rest) := by
  intro t ht some
  refine Option.eq_none_iff_forall_ne_some.mpr fun ⟨m, after⟩ found => ?_
  obtain ⟨before, between, opening, closing, text, ⟨optional, optional'⟩, identifier, -⟩ :=
    matches_of_report? found
  have outside : q ∉ phrase := by
    rcases isQuote_iff.mp quote with rfl | rfl <;> decide
  rcases List.append_eq_append_iff.mp text with ⟨more, named, words⟩ | ⟨more, rfl, words⟩
  · -- The name reaches up to the quotation mark, and a space would have to follow one of the two.
    cases more with
    | nil =>
      obtain ⟨rfl, -⟩ := List.cons.inj words
      cases quote
    | cons d more =>
      obtain ⟨rfl, words'⟩ := List.cons.inj words
      have outsideName := not_isQuote_of_isIdentifier identifier quote
      obtain rfl := nothing_behind_quote optional optional' outsideName some named
      obtain ⟨rfl, -⟩ := List.cons.inj words'
      exact letter rfl
  · have inNoise : phrase <+: more := prefix_of_stops outside ⟨_, words⟩
    exact h (inNoise.isInfix.trans ((List.suffix_append _ more).trans ht).isInfix)

/-! ## Logs -/

/-- A log: reports with noise in front of each one, and behind the last. -/
def logText (reported : List (List Char × Printed)) (last : List Char) : List Char :=
  reported.foldr (fun (noise, r) rest => noise ++ (r.text ++ rest)) last

theorem reports_skip {front rest : List Char} (nowhere : FitsNowhere report? front rest) {n : Nat}
    (enough : front.length + rest.length ≤ n) :
    reports n (front ++ rest) = reports (n - front.length) rest := by
  induction front generalizing n with
  | nil => rfl
  | cons c front ih =>
    obtain ⟨n, rfl⟩ : ∃ k, n = k + 1 := ⟨n - 1, by simp only [List.length_cons] at enough; omega⟩
    have here : report? (c :: (front ++ rest)) = none :=
      nowhere (c :: front) (List.suffix_refl _) (List.cons_ne_nil _ _)
    have shorter : front.length + rest.length ≤ n := by
      simp only [List.length_cons] at enough
      omega
    have later := ih (fun t ht => nowhere t (ht.trans (List.suffix_cons c front))) shorter
    rw [List.cons_append, reports, here, List.length_cons, Nat.add_sub_add_right]
    exact later

theorem reports_here {s rest : List Char} {m : Mismatch} (found : report? s = some (m, rest))
    (some : s ≠ []) (n : Nat) : reports (n + 1) s = m :: reports n rest := by
  obtain ⟨c, s, rfl⟩ := List.exists_cons_of_ne_nil some
  rw [reports, found]

/-- A name starts with a letter, so the quotation mark in front of it starts a report. -/
theorem text_front {r : Printed} (h : r.WellFormed) :
    ∃ c letters, r.text = r.nameOpens :: c :: letters ∧ c ≠ ' ' := by
  obtain ⟨c, letters, same, starts, -⟩ := Fix.isIdentifier_of_ascii h.name
  refine ⟨c, _, by rw [Printed.text, same]; rfl, ?_⟩
  rintro rfl
  cases starts

theorem reports_logText {reported : List (List Char × Printed)} {last : List Char}
    (h : ∀ b ∈ reported, IsNoise b.1 ∧ b.2.WellFormed) (noise : IsNoise last) {n : Nat}
    (enough : (logText reported last).length ≤ n) :
    reports n (logText reported last) = reported.map (·.2.mismatch) := by
  induction reported generalizing n with
  | nil =>
    have nothing := reports_skip noise.nowhere enough
    rw [List.append_nil] at nothing
    rw [logText, List.foldr_nil, nothing]
    cases n - last.length <;> rfl
  | cons b reported ih =>
    obtain ⟨⟨quiet, wf⟩, later⟩ := List.forall_mem_cons.mp h
    obtain ⟨c, letters, front, letter⟩ := text_front wf
    have whole : logText (b :: reported) last = b.1 ++ (b.2.text ++ logText reported last) := rfl
    have nowhere : FitsNowhere report? b.1 (b.2.text ++ logText reported last) := by
      rw [front]
      exact quiet.nowhere_before_quote wf.nameOpens letter
    have long : 0 < b.2.text.length := by simp [front]
    rw [whole, List.length_append, List.length_append] at enough
    obtain ⟨k, left⟩ : ∃ k, n - b.1.length = k + 1 := ⟨n - b.1.length - 1, by omega⟩
    have some : b.2.text ++ logText reported last ≠ [] := by simp [front]
    rw [whole, reports_skip nowhere (by rw [List.length_append]; omega), left,
      reports_here (report?_reads wf _) some, ih later (by omega), List.map_cons]

theorem Matches.stands {s rest : List Char} {m : Mismatch} (h : Matches s m rest) :
    (Fix.Stands m.name.toList s ∧ Fix.Stands m.specifier.toList s) ∧ rest <:+ s := by
  obtain ⟨before, between, opening, closing, rfl, -, identifier, quoted⟩ := h
  have behind : rest <:+ phrase ++ opening :: (m.specifier.toList ++ closing :: rest) :=
    (((List.suffix_cons closing rest).trans (List.suffix_append m.specifier.toList _)).trans
      (List.suffix_cons opening _)).trans (List.suffix_append phrase _)
  have inside : m.name.toList <:+: before ++ m.name.toList ++ between :=
    List.infix_append before m.name.toList between
  have named : Fix.Stands m.specifier.toList (m.specifier.toList ++ closing :: rest) :=
    ⟨quoted.1, (List.prefix_append m.specifier.toList _).isInfix⟩
  have opened : Fix.Stands m.specifier.toList
      ([opening] ++ (m.specifier.toList ++ closing :: rest)) := named.of_append
  exact ⟨⟨⟨identifier.ne_nil, inside.trans (List.prefix_append _ _).isInfix⟩,
    opened.of_append.of_append⟩,
    behind.trans (List.suffix_append _ _)⟩

theorem stands_of_mem_reports {n : Nat} {s : List Char} {m : Mismatch} (h : m ∈ reports n s) :
    Fix.Stands m.name.toList s ∧ Fix.Stands m.specifier.toList s := by
  induction n generalizing s with
  | zero => cases s <;> cases h
  | succ n ih =>
    cases s with
    | nil => cases h
    | cons c rest =>
      have later : ∀ {t}, t <:+ c :: rest → m ∈ reports n t →
          Fix.Stands m.name.toList (c :: rest) ∧ Fix.Stands m.specifier.toList (c :: rest) :=
        fun ht there => ⟨(ih there).1.of_suffix ht, (ih there).2.of_suffix ht⟩
      unfold reports at h
      split at h
      · next m' after found =>
        obtain ⟨stands, behind⟩ := (matches_of_report? found).stands
        rcases List.mem_cons.mp h with rfl | there
        · exact stands
        · exact later behind there
      · exact later (List.suffix_cons c rest) h

/-- A log with noise between its reports has their mismatches, each once and in the order in which
they come first; and whatever the log, no mismatch is there twice, or with a name or a specifier that
is not in the log. -/
theorem mismatches_exact :
    (∀ (reported : List (List Char × Printed)) (last : List Char),
      (∀ b ∈ reported, IsNoise b.1 ∧ b.2.WellFormed) → IsNoise last →
      mismatches (String.ofList (logText reported last)) =
        (reported.map (·.2.mismatch)).eraseDups) ∧
    ∀ log, (mismatches log).Nodup ∧ ∀ m ∈ mismatches log,
      Fix.Stands m.name.toList log.toList ∧ Fix.Stands m.specifier.toList log.toList := by
  refine ⟨fun reported last h noise => ?_, fun log => ⟨nodup_eraseDups _, fun m hm => ?_⟩⟩
  · rw [mismatches, String.toList_ofList, reports_logText h noise (by simp)]
  · exact stands_of_mem_reports (List.mem_eraseDups.mp hm)

/-- A bundler that reports one import of a shop twice. -/
def shopReports : List (List Char × Printed) := [
  ("Attempted import error: ".toList, ⟨⟨"Shop", "@/shop"⟩, '\x27', '\x27', '\x27', '\x27'⟩),
  (" (imported as 'Shop').\n".toList, ⟨⟨"Shop", "@/shop"⟩, '"', '"', '\x27', '\x27'⟩)]

theorem mismatches_shop :
    (∀ b ∈ shopReports, IsNoise b.1 ∧ b.2.WellFormed) ∧ IsNoise "\n".toList ∧
    mismatches (String.ofList (logText shopReports "\n".toList)) = [⟨"Shop", "@/shop"⟩] ∧
    Fix.Stands "Shop".toList (String.ofList (logText shopReports "\n".toList)).toList := by
  have quiet : ∀ s : List Char, 'x' ∉ s → IsNoise s := fun s missing there =>
    missing (there.subset (by decide))
  have wf : ∀ b ∈ shopReports, IsNoise b.1 ∧ b.2.WellFormed := by
    refine List.forall_mem_cons.mpr ⟨⟨quiet _ (by decide), ?_⟩,
      List.forall_mem_singleton.mpr ⟨quiet _ (by decide), ?_⟩⟩
    · exact ⟨by decide, by decide, rfl, rfl, rfl, rfl⟩
    · exact ⟨by decide, by decide, rfl, rfl, rfl, rfl⟩
  have last : IsNoise "\n".toList := quiet _ (by decide)
  have once : (shopReports.map (·.2.mismatch)).eraseDups = [⟨"Shop", "@/shop"⟩] := by
    simp [shopReports, List.eraseDups_cons]
  have found := (mismatches_exact.1 shopReports "\n".toList wf last).trans once
  exact ⟨wf, last, found,
    ((mismatches_exact.2 _).2 ⟨"Shop", "@/shop"⟩ (by rw [found]; exact List.mem_singleton_self _)).1⟩

end ModuleRepair.BuildLog
