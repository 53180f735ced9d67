import ModuleRepair.Proofs.Diagnostic.Lasting
import ModuleRepair.Proofs.SourceFile.OneByOne
import ModuleRepair.Proofs.Text.Front

/-!
# Correcting a path ends

A specifier can be collapsed when it climbs right behind the mark (`AliasRoot.Climbs`,
`collapse?_eq_some_iff`). What comes out is shorter and does not climb, so a corrected import is
never found again: the imports of the specifier are corrected one after the other, and then no step
is left (`replaceSpecifier_count`). Nothing is asked of the mark.
-/
namespace ModuleRepair

open ModuleRepair.Text ModuleRepair.Script ModuleRepair.SourceFile

/-! ## Climbing specifiers -/

/-- A number of steps to the parent directory. -/
def Specifier.parents (k : Nat) : List Char := (List.replicate k "../".toList).flatten

namespace Specifier

theorem parents_succ (k : Nat) (rest : List Char) :
    parents (k + 1) ++ rest = '.' :: '.' :: '/' :: (parents k ++ rest) := by
  simp [parents, List.replicate_succ]

theorem length_parents (k : Nat) : (parents k).length = 3 * k := by
  simp [parents, Nat.mul_comm]

/-- All leading steps are passed over, and nothing else. -/
theorem dropParents_eq_iff {s rest : List Char} :
    dropParents s = rest ↔ ¬"../".toList <+: rest ∧ ∃ k, s = parents k ++ rest := by
  constructor
  · rintro rfl
    fun_induction dropParents s with
    | case1 s ih =>
      obtain ⟨most, k, split⟩ := ih
      exact ⟨most, k + 1, by rw [parents_succ, ← split]⟩
    | case2 s other =>
      refine ⟨?_, 0, rfl⟩
      rintro ⟨behind, same⟩
      exact other behind same.symm
  · rintro ⟨most, k, rfl⟩
    induction k with
    | zero => exact dropParents.eq_2 rest fun behind same => most ⟨behind, same.symm⟩
    | succ k ih => rw [parents_succ, dropParents, ih]

end Specifier

namespace AliasRoot

/-- A specifier takes some steps to the parent directory right behind the mark, and goes on with
something else. -/
structure Climbs (r : AliasRoot) (specifier : String) (k : Nat) (rest : List Char) : Prop where
  text : specifier.toList = r.mark.toList ++ (Specifier.parents k ++ rest)
  steps : 1 ≤ k
  goesOn : rest ≠ []
  most : ¬"../".toList <+: rest

variable {r : AliasRoot} {specifier new : String}

/-- Exactly the specifiers that climb can be collapsed, to what stands behind the last step. -/
theorem collapse?_eq_some_iff : r.collapse? specifier = some new ↔
    ∃ k rest, r.Climbs specifier k rest ∧ new = r.mark ++ String.ofList rest := by
  constructor
  · intro h
    unfold collapse? at h
    split at h
    · cases h
    · next below found =>
      obtain ⟨most, k, split⟩ :=
        Specifier.dropParents_eq_iff.mp (Eq.refl (Specifier.dropParents below))
      simp only [Option.ite_none_left_eq_some, not_or, Option.some.injEq] at h
      obtain ⟨⟨moved, goesOn⟩, rfl⟩ := h
      have steps : 1 ≤ k := by
        refine Nat.one_le_iff_ne_zero.mpr fun none => moved ?_
        rw [none] at split
        exact congrArg List.length split.symm
      exact ⟨k, _, ⟨split ▸ afterStart?_eq_some_iff.mp found, steps, goesOn, most⟩, rfl⟩
  · rintro ⟨k, rest, h, rfl⟩
    have dropped : Specifier.dropParents (Specifier.parents k ++ rest) = rest :=
      Specifier.dropParents_eq_iff.mpr ⟨h.most, k, rfl⟩
    have shorter : rest.length ≠ (Specifier.parents k ++ rest).length := by
      have steps := h.steps
      rw [List.length_append, Specifier.length_parents]
      omega
    simp only [collapse?, afterStart?_eq_some_iff.mpr h.text, dropped]
    rw [if_neg (not_or.mpr ⟨shorter, h.goesOn⟩)]

theorem length_collapsed (h : r.collapse? specifier = some new) :
    new.length < specifier.length := by
  obtain ⟨k, rest, climbs, rfl⟩ := collapse?_eq_some_iff.mp h
  have text := congrArg List.length climbs.text
  have steps := climbs.steps
  simp only [List.length_append, Specifier.length_parents, String.length_toList] at text
  simp only [String.length_append, String.length_ofList]
  omega

end AliasRoot

/-! ## The imports of a specifier -/

/-- An import with another specifier where it has the old one. -/
def Import.correct (old new : String) (d : Import) : Import :=
  if d.specifier = old then { d with specifier := new } else d

theorem unplaced_correct (old new : String) (d : Import) :
    unplaced (d.correct old new) = (unplaced d).correct old new := by
  unfold Import.correct
  by_cases same : d.specifier = old
  · rw [if_pos same, if_pos (show (unplaced d).specifier = old from same)]
    rfl
  · rw [if_neg same, if_neg (show ¬(unplaced d).specifier = old from same)]

/-- In every module of a set, an import of the old specifier can get the new one. The module is then
read with this import changed and all others as they were, apart from their places. -/
def SourceFile.RereadsCorrected (old new : String) (files : SourceFile → Prop) : Prop :=
  ∀ f o front d back, files f → f.read = .ok (some o) → o.imports = front ++ d :: back →
    d.specifier = old →
    files (f.replaceImport d [{ d with specifier := new }]) ∧
      ∃ o', (f.replaceImport d [{ d with specifier := new }]).read = .ok (some o') ∧
        o'.imports.map unplaced = (front ++ { d with specifier := new } :: back).map unplaced

/-- Import lines are read so, without any assumption. -/
theorem SourceFile.rereadsCorrected_lines (l : Language) {old new : String}
    (fit : ∀ c ∈ new.toList, c ≠ '"' ∧ c ≠ '\x27' ∧ c ≠ '\\' ∧ c ≠ '\n' ∧ c ≠ '\r') :
    RereadsCorrected old new fun f => ∃ ds, HoldsLines l ds f := by
  rintro f o front d back ⟨ds, h⟩ hr split -
  obtain rfl : { imports := placed 0 ds } = o := by simpa [h.read] using hr
  have inside : (placed 0 ds)[front.length]? = some d := by
    rw [show placed 0 ds = front ++ d :: back from split]
    simp
  obtain ⟨short, wf, typed⟩ := of_placed_getElem? h.wellFormed h.typed inside
  have written : Import.WellFormed { d with specifier := new } := by
    refine { wf with specifier := fun c hc => ?_ }
    obtain ⟨double, single, rest⟩ := fit c hc
    refine ⟨?_, rest⟩
    rcases wf.quote with quote | quote <;> simp [quote, double, single]
  have writable : (Edit.replace front.length [{ d with specifier := new }]).Writable l ds.length :=
    .replaceOne short written.normal (typed.imp_right fun untyped =>
      Import.normal_untyped untyped.1 fun b hb => by
        obtain ⟨b', hb', rfl⟩ := Repairs.mem_bindings_withSpecifier hb
        exact untyped.bindings_isType b' hb')
  have edited : (Edit.replace front.length [{ d with specifier := new }]).file f
      { imports := placed 0 ds } = .ok (f.replaceImport d [{ d with specifier := new }]) := by
    simp only [Edit.file, inside]
    rfl
  obtain ⟨o', hr', read⟩ := h.reread_exactly hr writable edited
  refine ⟨⟨_, h.edited hr writable edited⟩, o', hr', ?_⟩
  rw [read, show placed 0 ds = front ++ d :: back from split]
  simp [Edit.normal, Edit.imports, written.normal_eq]
  rfl

namespace Repairs

variable {p : Project} {files : SourceFile → Prop} {f : SourceFile} {o : Outline} {n : Nat}
  {old new specifier : String}

theorem importCount_eq_zero {ds : List Import} :
    importCount specifier ds = 0 ↔ ∀ d ∈ ds, d.specifier ≠ specifier := by
  simp [importCount, List.count_eq_zero]

/-- The loop ends where no import of the specifier is left. -/
theorem replaceSpecifier_none (ho : f.outline = .ok o) (none : importCount old o.imports = 0)
    (new : String) (n : Nat) : replaceSpecifier old new n f = .ok (f, 0) := by
  cases n with
  | zero => rfl
  | succ n =>
    have nothing : o.imports.find? (·.specifier = old) = .none := by
      simpa using importCount_eq_zero.mp none
    simp only [replaceSpecifier, ho, bind, Except.bind, nothing]
    rfl

/-- One step of the loop leaves one import of the specifier less. -/
theorem importCount_corrected {ds front back : List Import} {d : Import} (other : new ≠ old)
    (same : d.specifier = old)
    (read : ds.map unplaced = (front ++ { d with specifier := new } :: back).map unplaced) :
    importCount old (front ++ d :: back) = importCount old ds + 1 := by
  have specifiers := congrArg (List.map Import.specifier) read
  rw [List.map_map, List.map_map] at specifiers
  have seen : ds.map Import.specifier =
      (front ++ { d with specifier := new } :: back).map Import.specifier := specifiers
  simp only [importCount, seen, List.map_append, List.map_cons, List.count_append,
    List.count_cons, same]
  simp [other]
  omega

/-- **The loop corrects the imports of a specifier, each in one step, and then ends.** The bound is
not reached as long as it is not below their number. -/
theorem replaceSpecifier_count (h : RereadsCorrected old new files) (other : new ≠ old)
    (hf : files f) (hr : f.read = .ok (some o)) :
    ∃ g o', (∀ n, importCount old o.imports ≤ n →
        replaceSpecifier old new n f = .ok (g, importCount old o.imports)) ∧
      g = { f with text := g.text } ∧ files g ∧ g.read = .ok (some o') ∧
      o'.imports.map unplaced = o.imports.map fun d => (unplaced d).correct old new := by
  -- The induction is on the number of imports that are left to correct.
  induction count : importCount old o.imports generalizing f o with
  | zero =>
    refine ⟨f, o, fun n _ => replaceSpecifier_none (outline_of_read hr) count new n, rfl, hf, hr,
      List.map_congr_left fun d hd => ?_⟩
    rw [← unplaced_correct, Import.correct, if_neg (importCount_eq_zero.mp count d hd)]
  | succ count ih =>
    cases found : o.imports.find? (·.specifier = old) with
    | none =>
      have none : importCount old o.imports = 0 :=
        importCount_eq_zero.mpr (by simpa using List.find?_eq_none.mp found)
      omega
    | some d =>
      have same : d.specifier = old := by simpa using List.find?_some found
      obtain ⟨front, back, split⟩ := List.append_of_mem (List.mem_of_find?_eq_some found)
      obtain ⟨hg, o₁, hr₁, read⟩ := h f o front d back hf hr split same
      have fewer := importCount_corrected other same read
      obtain ⟨g, o', run, text, hg', hr', result⟩ := ih hg hr₁ (by rw [← split] at fewer; omega)
      refine ⟨g, o', fun n enough => ?_, text, hg', hr', ?_⟩
      · obtain ⟨n, rfl⟩ := Nat.exists_eq_add_one.mpr (Nat.zero_lt_of_lt enough)
        simp only [replaceSpecifier, outline_of_read hr, bind, Except.bind, found,
          run n (Nat.le_of_succ_le_succ enough)]
        rfl
      · -- A corrected import stays as it is.
        have known (es : List Import) : es.map (fun e => (unplaced e).correct old new) =
            (es.map unplaced).map (Import.correct old new) := by
          rw [List.map_map]
          rfl
        rw [result, known, known, read, split]
        simp [Import.correct, unplaced, same, other]

theorem importCount_le (specifier : String) (ds : List Import) :
    importCount specifier ds ≤ ds.length := by
  simpa [importCount] using List.count_le_length (l := ds.map Import.specifier) (a := specifier)

/-- Nothing is corrected where the specifier does not climb, or no import has it. -/
theorem correctPath_none (hr : f.read = .ok (some o))
    (h : p.root.collapse? specifier = none ∨ importCount specifier o.imports = 0) :
    correctPath p f specifier = .ok none := by
  unfold correctPath
  cases collapsed : p.root.collapse? specifier with
  | none => rfl
  | some new =>
    have none := h.resolve_left (by simp [collapsed])
    simp only [outline_of_read hr, bind, Except.bind,
      replaceSpecifier_none (outline_of_read hr) none]
    rfl

theorem correctPath_some (hr : f.read = .ok (some o)) {g : SourceFile}
    (collapsed : p.root.collapse? specifier = some new) (some : importCount specifier o.imports ≠ 0)
    (run : ∀ n, importCount specifier o.imports ≤ n →
      replaceSpecifier specifier new n f = .ok (g, importCount specifier o.imports)) :
    correctPath p f specifier =
      .ok (.some (g, "module path '" ++ specifier ++ "' → '" ++ new ++ "'")) := by
  simp only [correctPath, collapsed, outline_of_read hr, bind, Except.bind,
    run _ (importCount_le specifier o.imports), if_neg some]
  rfl

/-- **The correction of a path is exact and ends**, whatever the mark is. -/
theorem correctPath_exact (p : Project) (specifier : String) :
    (∀ new, p.root.collapse? specifier = some new ↔
      ∃ k rest, p.root.Climbs specifier k rest ∧ new = p.root.mark ++ String.ofList rest) ∧
    (∀ new, p.root.collapse? specifier = some new →
      new.length < specifier.length ∧ p.root.collapse? new = none) ∧
    (∀ f o, f.read = .ok (some o) →
      p.root.collapse? specifier = none ∨ importCount specifier o.imports = 0 →
      correctPath p f specifier = .ok none) ∧
    ∀ new, p.root.collapse? specifier = some new →
      ∀ files, RereadsCorrected specifier new files →
      ∀ f o, files f → f.read = .ok (some o) → importCount specifier o.imports ≠ 0 →
      ∃ g o',
        correctPath p f specifier =
          .ok (some (g, "module path '" ++ specifier ++ "' → '" ++ new ++ "'")) ∧
        (∀ n, importCount specifier o.imports ≤ n →
          replaceSpecifier specifier new n f = .ok (g, importCount specifier o.imports)) ∧
        g = { f with text := g.text } ∧ g.read = .ok (some o') ∧
        (∀ d ∈ o'.imports, d.specifier ≠ specifier) ∧
        o'.imports.map unplaced = o.imports.map fun d =>
          if d.specifier = specifier then { unplaced d with specifier := new }
          else unplaced d := by
  refine ⟨fun new => AliasRoot.collapse?_eq_some_iff, fun new collapsed =>
    ⟨AliasRoot.length_collapsed collapsed, collapse?_collapsed collapsed⟩,
    fun f o => correctPath_none, ?_⟩
  intro new collapsed files h f o hf hr some
  have other := collapse?_ne collapsed
  obtain ⟨g, o', run, text, -, hr', result⟩ := replaceSpecifier_count h other hf hr
  refine ⟨g, o', correctPath_some hr collapsed some run, run, text, hr', fun e he => ?_, result⟩
  have there := List.mem_map_of_mem (f := unplaced) he
  rw [result] at there
  obtain ⟨d, -, seen⟩ := List.mem_map.mp there
  rw [show e.specifier = (unplaced e).specifier from rfl, ← seen, Import.correct]
  split
  · exact other
  · next different => exact different

/-- Two imports of a path above the directory, and one of another path. -/
def climbingImports : List Import := [
  { specifier := "@/../../theme", defaultName := some "theme", quote := "\x27" },
  { specifier := "@/theme", namespaceName := some "themes", semicolon := false },
  { specifier := "@/../../theme", named := [⟨"Color", some "Paint", false⟩], typeOnly := true }]

/-- A module of these imports. -/
def climbingModule : SourceFile where
  path := "/app/main.ts"
  text := String.intercalate "\n" (climbingImports.map (·.render))
  saved := ""
  root := ⟨"@/", "/app"⟩

theorem climbingModule_corrected :
    AliasRoot.collapse? ⟨"@/", "/app"⟩ "@/../../theme" = some "@/theme" ∧
    RereadsCorrected "@/../../theme" "@/theme" (fun f => ∃ ds, HoldsLines .typescript ds f) ∧
    (∃ ds, HoldsLines .typescript ds climbingModule) ∧
    climbingModule.read = .ok (some { imports := placed 0 climbingImports }) ∧
    importCount "@/../../theme" (placed 0 climbingImports) = 2 ∧
    ∃ g o',
      correctPath ⟨"/app", ⟨"@/", "/app"⟩, .full, []⟩ climbingModule "@/../../theme" =
        .ok (some (g, "module path '@/../../theme' → '@/theme'")) ∧
      g.read = .ok (some o') ∧ o'.imports.map unplaced = [
        { specifier := "@/theme", defaultName := some "theme", quote := "\x27" },
        { specifier := "@/theme", namespaceName := some "themes", semicolon := false },
        { specifier := "@/theme", named := [⟨"Color", some "Paint", false⟩],
          typeOnly := true }] := by
  have lines : HoldsLines .typescript climbingImports climbingModule :=
    ⟨by decide, rfl, by decide, .inl rfl⟩
  have collapsed : AliasRoot.collapse? ⟨"@/", "/app"⟩ "@/../../theme" = some "@/theme" := by
    decide
  have rereads : RereadsCorrected "@/../../theme" "@/theme"
      fun f => ∃ ds, HoldsLines .typescript ds f := rereadsCorrected_lines _ (by simp)
  have count : importCount "@/../../theme" (placed 0 climbingImports) = 2 := by decide
  obtain ⟨-, -, -, exact⟩ :=
    correctPath_exact ⟨"/app", ⟨"@/", "/app"⟩, .full, []⟩ "@/../../theme"
  obtain ⟨g, o', corrected, -, -, hr', -, result⟩ := exact _ collapsed _ rereads climbingModule _
    ⟨_, lines⟩ lines.read (by rw [count]; decide)
  exact ⟨collapsed, rereads, ⟨_, lines⟩, lines.read, count, g, o', corrected, hr',
    result.trans (by decide)⟩

end Repairs

end ModuleRepair
