import Mathlib.Data.List.Forall2
import ModuleRepair.BuildLog.Repair
import ModuleRepair.Export.Normalize
import ModuleRepair.Proofs.SourceFile.ImportLines

/-!
# Rewriting imports one after the other

Two passes rewrite the first import of a kind and read the module again, until none is left
(`rewriteWhere`). Where a rewritten import is of the kind no more, each rewriting leaves one import
less to rewrite. So the rewriting ends long before its bound is reached, all imports of the kind
have been rewritten, and no others (`rewriteWhere_eq_ok`).
-/
namespace ModuleRepair

open ModuleRepair.Script ModuleRepair.SourceFile

theorem Script.unplaced_normal (d : Import) : unplaced d.normal = d.normal := rfl

namespace SourceFile

/-- Rewrites the first import of a kind and reads the module again, until there is none left. The
rewritings are counted; the argument bounds their number. -/
def rewriteWhere (q : Import → Bool) (t : Import → Option Import) :
    Nat → SourceFile → Except LanguageError (SourceFile × Nat)
  | 0, f => return (f, 0)
  | n + 1, f => do
    match (← f.outline).imports.find? q with
    | none => return (f, 0)
    | some d =>
      match t d with
      | none => return (f, 0)
      | some new =>
        let (f, count) ← rewriteWhere q t n (f.replaceImport d [new])
        return (f, count + 1)

/-- The imports of a kind can be rewritten one after the other in every module of a set. `v` is what
is looked at in an import. -/
structure RewritesAway (files : SourceFile → Prop) (v : Import → Import) (q : Import → Bool)
    (t : Import → Option Import) : Prop where
  kind_view : ∀ d, q (v d) = q d
  view_view : ∀ d, v (v d) = v d
  view_normal : ∀ d : Import, v d.normal = d.normal
  rewritten_view : ∀ d, (t (v d)).map (·.normal) = (t d).map (·.normal)
  /-- The import becomes one of another kind, and is read back in its place among the others. -/
  step : ∀ {f : SourceFile} {o : Outline} {front back : List Import} {d : Import},
    files f → f.read = .ok (some o) → o.imports = front ++ d :: back → q d = true →
    ∃ new o', t d = some new ∧ q new.normal = false ∧ files (f.replaceImport d [new]) ∧
      (f.replaceImport d [new]).read = .ok (some o') ∧
      o'.imports.map v = front.map v ++ new.normal :: back.map v

/-- What is seen of an import in the end. -/
def viewAfter (v : Import → Import) (q : Import → Bool) (t : Import → Option Import)
    (d : Import) : Import :=
  if q d then ((t d).map (·.normal)).getD (v d) else v d

variable {files : SourceFile → Prop} {v : Import → Import} {q : Import → Bool}
  {t : Import → Option Import} {f : SourceFile} {o : Outline} {n : Nat}

theorem viewAfter_of_not {d : Import} (h : q d = false) : viewAfter v q t d = v d := by
  rw [viewAfter, h]
  rfl

theorem viewAfter_of_eq_some {d new : Import} (h : q d = true) (rewritten : t d = some new) :
    viewAfter v q t d = new.normal := by
  rw [viewAfter, h, rewritten]
  rfl

theorem RewritesAway.viewAfter_view (h : RewritesAway files v q t) (d : Import) :
    viewAfter v q t (v d) = viewAfter v q t d := by
  rw [viewAfter, h.kind_view, h.rewritten_view, h.view_view, viewAfter]

/-- The number of imports of a kind, by what is seen of them. -/
theorem RewritesAway.countP_view (h : RewritesAway files v q t) (ds : List Import) :
    (ds.map v).countP q = ds.countP q := by
  rw [List.countP_map]
  exact List.countP_congr fun d _ => by rw [Function.comp_apply, h.kind_view]

theorem rewriteWhere_none (ho : f.outline = .ok o) (none : o.imports.countP q = 0) (n : Nat) :
    rewriteWhere q t n f = .ok (f, 0) := by
  cases n with
  | zero => rfl
  | succ n =>
    have nothing : o.imports.find? q = .none :=
      List.find?_eq_none.mpr (List.countP_eq_zero.mp none)
    simp only [rewriteWhere, ho, bind, Except.bind, nothing]
    rfl

/-- Whether or not it ends in time, the rewriting leads to a module under the same path, and leaves
the module as it is where it counts nothing. -/
theorem rewriteWhere_path (q : Import → Bool) (t : Import → Option Import) (n : Nat) {l : Language}
    (language : Language.ofPath f.path = .ok l) :
    ∃ g count, rewriteWhere q t n f = .ok (g, count) ∧ g.path = f.path ∧ (count = 0 → g = f) := by
  induction n generalizing f with
  | zero => exact ⟨f, 0, rfl, rfl, fun _ => rfl⟩
  | succ n ih =>
    simp only [rewriteWhere, outline_eq_ok language, bind, Except.bind]
    split
    · exact ⟨f, 0, rfl, rfl, fun _ => rfl⟩
    · next d _ =>
      split
      · exact ⟨f, 0, rfl, rfl, fun _ => rfl⟩
      · next new _ =>
        obtain ⟨g, count, run, path, -⟩ := ih (f := f.replaceImport d [new]) language
        exact ⟨g, count + 1, by simp only [run]; rfl, path, nofun⟩

/-- **All imports of a kind are rewritten, and no others.** The bound is not reached as long as it
is not below the number of these imports. -/
theorem rewriteWhere_eq_ok (h : RewritesAway files v q t) (hf : files f)
    (hr : f.read = .ok (some o)) (enough : o.imports.countP q ≤ n) :
    ∃ g o', rewriteWhere q t n f = .ok (g, o.imports.countP q) ∧ files g ∧
      g.read = .ok (some o') ∧ o'.imports.map v = o.imports.map (viewAfter v q t) := by
  induction n generalizing f o with
  | zero =>
    have none := Nat.le_zero.mp enough
    refine ⟨f, o, by rw [none]; rfl, hf, hr, List.map_congr_left fun d hd => ?_⟩
    rw [viewAfter_of_not (Bool.eq_false_iff.mpr (List.countP_eq_zero.mp none d hd))]
  | succ n ih =>
    cases found : o.imports.find? q with
    | none =>
      have none := List.find?_eq_none.mp found
      have count : o.imports.countP q = 0 := List.countP_eq_zero.mpr none
      refine ⟨f, o, ?_, hf, hr, List.map_congr_left fun d hd => ?_⟩
      · rw [rewriteWhere_none (outline_of_read hr) count, count]
      · rw [viewAfter_of_not (Bool.eq_false_iff.mpr (none d hd))]
    | some d =>
      obtain ⟨hd, front, back, split, -⟩ := List.find?_eq_some_iff_append.mp found
      obtain ⟨new, o₁, rewritten, away, hg, hr₁, seen⟩ := h.step hf hr split hd
      -- The rewritten import counts no more, and the others count as before.
      have fewer : o₁.imports.countP q + 1 = o.imports.countP q := by
        rw [← h.countP_view o₁.imports, seen, split]
        simp only [List.countP_append, List.countP_cons, h.countP_view, hd, away, if_true,
          Bool.false_eq_true, if_false]
        omega
      obtain ⟨g, o', run, hg', hr', result⟩ := ih hg hr₁ (by omega)
      refine ⟨g, o', ?_, hg', hr', result.trans ?_⟩
      · simp only [rewriteWhere, outline_of_read hr, bind, Except.bind, found, rewritten, run,
          ← fewer]
        rfl
      · have known (es : List Import) :
            es.map (viewAfter v q t) = (es.map v).map (viewAfter v q t) := by
          rw [List.map_map]
          exact List.map_congr_left fun e _ => (h.viewAfter_view e).symm
        rw [known o₁.imports, seen, List.map_append, List.map_cons, ← known, ← known, split,
          List.map_append, List.map_cons, viewAfter_of_not away, h.view_normal,
          viewAfter_of_eq_some hd rewritten]

/-- Elements of two lists that are mapped to the same list are paired by their images. -/
theorem forall₂_of_map_eq {α β γ : Type} {r : α → β → Prop} {g : α → γ} {k : β → γ} {as : List α}
    {bs : List β} (same : bs.map k = as.map g) (each : ∀ a ∈ as, ∀ b, k b = g a → r a b) :
    List.Forall₂ r as bs := by
  induction as generalizing bs with
  | nil =>
    obtain rfl : bs = [] := by simpa using same
    exact .nil
  | cons a as ih =>
    obtain ⟨b, bs, rfl, first, rest⟩ := List.map_eq_cons_iff.mp same
    obtain ⟨here, later⟩ := List.forall_mem_cons.mp each
    exact .cons (here b first) (ih rest later)

theorem exists_of_forall₂ {α β : Type} {r : α → β → Prop} {as : List α} {bs : List β}
    (h : List.Forall₂ r as bs) {a : α} (ha : a ∈ as) : ∃ b ∈ bs, r a b := by
  induction h with
  | nil => cases ha
  | cons first _ ih =>
    rcases List.mem_cons.mp ha with rfl | ha
    · exact ⟨_, List.mem_cons_self, first⟩
    · obtain ⟨b, hb, there⟩ := ih ha
      exact ⟨b, List.mem_cons_of_mem _ hb, there⟩

/-- The same for each import, with what is left in the end. -/
theorem rewriteWhere_each (h : RewritesAway files v q t) (hf : files f)
    (hr : f.read = .ok (some o)) (enough : o.imports.countP q ≤ n)
    {becomes : Import → Import → Prop} (becoming : ∀ d ∈ o.imports, q d = true →
      ∀ new e, t d = some new → v e = new.normal → becomes d e) :
    ∃ g o', rewriteWhere q t n f = .ok (g, o.imports.countP q) ∧ g.read = .ok (some o') ∧
      (∀ e ∈ o'.imports, q e = false) ∧ List.Forall₂ (fun d e =>
        (q d = true → becomes d e) ∧ (q d = false → v e = v d)) o.imports o'.imports := by
  obtain ⟨g, o', run, -, hr', result⟩ := rewriteWhere_eq_ok h hf hr enough
  have rewritten {d : Import} (hd : d ∈ o.imports) (hq : q d = true) :
      ∃ new, t d = some new ∧ q new.normal = false ∧ viewAfter v q t d = new.normal := by
    obtain ⟨front, back, split⟩ := List.append_of_mem hd
    obtain ⟨new, -, some, away, -⟩ := h.step hf hr split hq
    exact ⟨new, some, away, viewAfter_of_eq_some hq some⟩
  refine ⟨g, o', run, hr', fun e he => ?_,
    forall₂_of_map_eq result fun d hd e seen => ⟨fun hq => ?_, fun hq => ?_⟩⟩
  · have there := List.mem_map_of_mem (f := v) he
    rw [result] at there
    obtain ⟨d, hd, seen⟩ := List.mem_map.mp there
    rw [← h.kind_view, ← seen]
    cases hq : q d with
    | false => rw [viewAfter_of_not hq, h.kind_view, hq]
    | true =>
      obtain ⟨new, -, away, same⟩ := rewritten hd hq
      rw [same, away]
  · obtain ⟨new, some, -, same⟩ := rewritten hd hq
    exact becoming d hd hq new e some (seen.trans same)
  · exact seen.trans (viewAfter_of_not hq)

/-! ## Exact rereading -/

/-- Whenever an edit is allowed in a module of the set, the edited module is read with just this
change. All other imports are read as they were, apart from their places. -/
def RereadsExactly (allowed : List Import → Edit → Prop) (files : SourceFile → Prop) : Prop :=
  ∀ f o e f', files f → f.read = .ok (some o) → allowed o.imports e → e.file f o = .ok f' →
    files f' ∧ ∃ o', f'.read = .ok (some o') ∧
      o'.imports.map unplaced = (e.normal.imports o.imports).map unplaced

theorem RereadsExactly.replaced {allowed : List Import → Edit → Prop} {front back : List Import}
    {d new : Import} (h : RereadsExactly allowed files) (hf : files f)
    (hr : f.read = .ok (some o)) (split : o.imports = front ++ d :: back)
    (may : allowed o.imports (.replace front.length [new])) :
    files (f.replaceImport d [new]) ∧ ∃ o', (f.replaceImport d [new]).read = .ok (some o') ∧
      o'.imports.map unplaced = front.map unplaced ++ new.normal :: back.map unplaced := by
  have edited := h f o _ _ hf hr may (by simp only [Edit.file, split]; rfl)
  simpa [Edit.normal, Edit.imports, split, unplaced_normal] using edited

/-- **Import lines are reread exactly.** -/
theorem HoldsLines.reread_exactly {l : Language} {ds : List Import} {e : Edit} {f' : SourceFile}
    (h : HoldsLines l ds f) (hr : f.read = .ok (some o)) (w : e.Writable l ds.length)
    (he : e.file f o = .ok f') :
    ∃ o', f'.read = .ok (some o') ∧
      o'.imports.map unplaced = (e.normal.imports o.imports).map unplaced := by
  refine ⟨_, (h.edited hr w he).read, ?_⟩
  obtain rfl : { imports := placed 0 ds } = o := by simpa [h.read] using hr
  rw [unplaced_placed]
  cases e <;> simp [Edit.normal, Edit.imports, List.map_take, List.map_drop, unplaced_placed]

end SourceFile

end ModuleRepair
