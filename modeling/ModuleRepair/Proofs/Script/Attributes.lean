import ModuleRepair.Proofs.Script.Ends
import ModuleRepair.Proofs.Script.Parsed

/-!
# Attributes in a text

The attributes of an import that is read are a piece of the text, from a keyword to a closing brace
(`statementHere_excerpt`).
-/
namespace ModuleRepair.Script

open ModuleRepair.Text

/-- A piece of a text that starts within a line, and ends on one on which something can be seen. -/
structure Excerpt (piece whole : List Char) : Prop where
  inside : piece <:+: whole
  starts : piece.head? ≠ some '\n'
  ends : Shown lineBreaks piece

theorem Excerpt.of_reaches {piece : List Char} {c d : Cursor} (h : c.Reaches d)
    (excerpt : Excerpt piece d.rest) : Excerpt piece c.rest := by
  obtain ⟨taken, split, -⟩ := h
  rw [split]
  exact ⟨excerpt.inside.trans ⟨taken, [], by simp⟩, excerpt.starts, excerpt.ends⟩

theorem Reader.exists_of_bind {α β : Type} {r : Reader α} {f : α → Reader β} {c d : Cursor} {b : β}
    (h : (r >>= f) c = some (b, d)) : ∃ a e, r c = some (a, e) ∧ f a e = some (b, d) := by
  rw [bind_apply] at h
  split at h
  · cases h
  · next a e read => exact ⟨a, e, read, h⟩

theorem Reader.or_of_or {α : Type} {r q : Reader α} {c d : Cursor} {a : α}
    (h : (r <|> q) c = some (a, d)) : r c = some (a, d) ∨ q c = some (a, d) := by
  change (r c <|> q c) = _ at h
  cases read : r c with
  | none => exact .inr (by simpa [read] using h)
  | some pair => exact .inl (by simpa [read] using h)

namespace Pattern

variable {ρ : Type} {grammar : ρ → Pattern ρ} {n : Nat} {p q : Pattern ρ} {c d : Cursor}

theorem exists_of_both (h : run grammar n (p ++ q) c = some d) :
    ∃ m e, run grammar m p c = some e := by
  cases n with
  | zero => cases h
  | succ m =>
    change run grammar (m + 1) (both p q) c = some d at h
    simp only [run] at h
    split at h
    · next e first => exact ⟨m, e, first⟩
    · cases h

theorem exists_of_either (h : run grammar n (either p q) c = some d) :
    ∃ m, run grammar m p c = some d ∨ run grammar m q c = some d := by
  cases n with
  | zero => cases h
  | succ m =>
    simp only [run] at h
    split at h
    · next e first => exact ⟨m, .inl (h ▸ first)⟩
    · exact ⟨m, .inr h⟩

end Pattern

theorem prefix_of_kw {grammar : Rule → Shape} {n : Nat} {k : String} {c d : Cursor}
    (h : Pattern.run grammar n (Shape.kw k) c = some d) : k.toList <+: c.rest := by
  cases n with
  | zero => cases h
  | succ n =>
    obtain ⟨m, measured, -⟩ := Option.map_eq_some_iff.mp h
    unfold keyword? at measured
    split at measured
    · next front => exact List.isPrefixOf_iff_prefix.mp front
    · cases measured

section

variable {s : Scope} {c d : Cursor} {a : String}

/-- Attributes start with one of two keywords. -/
theorem attributes_keyword {grammar : Rule → Shape} {typed : Bool} {n : Nat} {p q : Shape}
    (h : Pattern.run grammar n
      (.either (Shape.kw "with") (Pattern.only typed (Shape.kw "assert")) ++ p ++ q) c = some d) :
    "with".toList <+: c.rest ∨ "assert".toList <+: c.rest := by
  obtain ⟨m, e, first⟩ := Pattern.exists_of_both h
  obtain ⟨m, e, first⟩ := Pattern.exists_of_both first
  obtain ⟨m, first | first⟩ := Pattern.exists_of_either first
  · exact .inl (prefix_of_kw first)
  · cases typed with
    | true => exact .inr (prefix_of_kw first)
    | false =>
      cases m with
      | zero => cases first
      | succ m => cases first

theorem attributes_excerpt (read : attributes s c = some (some a, d)) :
    Excerpt a.toList c.rest := by
  rcases Reader.or_of_or read with read | none
  · obtain ⟨_, e, linked, read⟩ := Reader.exists_of_bind read
    obtain ⟨text, d', sliced, same⟩ := Reader.exists_of_bind read
    cases same
    obtain ⟨d', matched, ⟨⟩⟩ := Option.map_eq_some_iff.mp sliced
    have through : c.Reaches e := Forward.link s false c () e linked
    obtain ⟨taken, rest, offset⟩ : e.Reaches d := .run matched
    obtain ⟨taken', rest', closed⟩ : e.Closes lineBreaks true d :=
      Pattern.run_closes (grammar_stops s.language) (by simp) matched
    obtain rfl := List.append_cancel_right (rest.symm.trans rest')
    have shown := closed.shown
    have text : e.textTo d = taken := by
      rw [Cursor.textTo, offset, Nat.add_sub_cancel_left, rest, takeBytes_byteSize]
    refine .of_reaches through ⟨?_, ?_, ?_⟩
    · rw [String.toList_ofList, text, rest]
      exact ⟨[], d.rest, rfl⟩
    · have first : taken.head? = e.rest.head? := by
        rw [rest, List.head?_append, List.head?_eq_some_head shown.ne_nil, Option.some_or]
      rw [String.toList_ofList, text, first]
      rcases attributes_keyword matched with ⟨_, same⟩ | ⟨_, same⟩
      · simp [← same]
      · simp [← same]
    · rwa [String.toList_ofList, text]
  · cases none

theorem importStatement_excerpt {i : Import}
    (read : importStatement s c = some (.importing i, d)) :
    ∀ a ∈ i.attributes, Excerpt a.toList c.rest := by
  obtain ⟨start, c₁, here, read⟩ := Reader.exists_of_bind read
  obtain ⟨_, c₂, keyword, read⟩ := Reader.exists_of_bind read
  obtain ⟨_, c₃, gap, read⟩ := Reader.exists_of_bind read
  rcases Reader.or_of_or read with other | read
  · have imports : Answers (importAlias s) (· ≠ .importing i) := importAlias_answers nofun s
    exact absurd rfl (imports _ _ _ other)
  · obtain ⟨⟨specifier, typeOnly, clause⟩, c₄, parts, read⟩ := Reader.exists_of_bind read
    obtain ⟨attributes, c₅, attributed, read⟩ := Reader.exists_of_bind read
    obtain ⟨_, c₆, closed, read⟩ := Reader.exists_of_bind read
    obtain ⟨semicolon, c₇, ended, read⟩ := Reader.exists_of_bind read
    cases read
    have first : c.Reaches c₃ :=
      (Cursor.Reaches.trans (Forward.get _ _ _ here) (Forward.keyword _ _ _ _ keyword)).trans
        (Forward.gap _ _ _ gap)
    have second : c₃.Reaches c₄ :=
      Forward.or (.bind (.text _) fun _ => .pure _) (.bind (typeMark_forward s) fun _ =>
        .bind (importClause_forward s) fun _ => .bind fromClause_forward fun _ => .pure _)
        _ _ _ parts
    rintro a ⟨⟩
    exact .of_reaches (first.trans second) (attributes_excerpt attributed)

/-- The attributes of an import are a piece of the text from the import on. -/
theorem statementHere_excerpt {i : Import}
    (read : statementHere s c = some (.importing i, d)) :
    ∀ a ∈ i.attributes, Excerpt a.toList c.rest := by
  rcases Reader.or_of_or read with read | read
  · exact importStatement_excerpt read
  · have others : Answers (exportStatement s <|> plainStatement s) (Imports fun _ => False) :=
      (exportStatement_answers .imports s).or (plainStatement_answers s)
    exact (others _ _ _ read).elim

end

end ModuleRepair.Script
