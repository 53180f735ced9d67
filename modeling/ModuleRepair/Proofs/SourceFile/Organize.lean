import ModuleRepair.Proofs.SourceFile.ImportLines
import ModuleRepair.Proofs.SourceFile.Merge

/-!
# Organizing keeps the meaning

Every step of organizing edits one import at a time and reads the module again. As long as the
edited modules are read as they were edited, the imports mean the same at the end: each merger and
each reordering keeps the meaning (`Keeps.mergeOnce`, `Keeps.sortAt`), and so do their runs.
-/
namespace ModuleRepair.SourceFile

open ModuleRepair.Script

/-- The edits of organizing in a module that binds certain names from the start: an import goes, its
named bindings are put in order, or it is merged with others and then binds nothing new. -/
inductive Organizing (known : List Binding) (ds : List Import) : Edit → Prop
  | removed {i : Nat} : i < ds.length → Organizing known ds (.remove i)
  | sorted {i : Nat} {d : Import} : ds[i]? = some d →
      Organizing known ds (.replace i [{ d with named := sortNamed d.named }])
  | merged {i : Nat} {d : Import} {rest : List Import} : ds[i]? = some d → isMergeable d = true →
      (∀ b ∈ (Import.merge d rest).bindings, b ∈ known) →
      Organizing known ds (.replace i [Import.merge d rest])

/-- The module is in a set, and its imports mean the same as the given ones. -/
def Keeps (files : SourceFile → Prop) (ds : List Import) (f : SourceFile) : Prop :=
  files f ∧ ∃ o, f.read = .ok (some o) ∧ SameMeaning ds o.imports

variable {files : SourceFile → Prop} {f f' : SourceFile} {o : Outline} {ds : List Import}

theorem ReadAs.keeps {inPlace ds' : List Import} (h : ReadAs files inPlace ds' f)
    (same : SameMeaning ds ds') : Keeps files ds f := by
  obtain ⟨hf, o, hr, imports, -⟩ := h
  exact ⟨hf, o, hr, same.trans (sameMeaning_of_normal imports)⟩

/-- Imports are removed from the end on, so that those in front are still where they were. -/
theorem removeImports_readAs {known : List Binding} (h : Rereads (Organizing known) files)
    (hf : files f) (hr : f.read = .ok (some o)) (p : Import → Bool) {front back : List Import}
    (split : o.imports = front ++ back) :
    ReadAs files front (front ++ back.filter (!p ·))
      ((back.filter p).foldr (fun d f => f.removeImport d) f) := by
  induction back generalizing front with
  | nil => exact ⟨hf, o, hr, by simp [split], by simp [split]⟩
  | cons d back ih =>
    have behind : o.imports = (front ++ [d]) ++ back := by simp [split]
    have later := ih behind
    cases hp : p d with
    | false =>
      obtain ⟨hg, o', hr', imports, inPlace⟩ := later
      refine ⟨by simpa [hp] using hg, o', by simpa [hp] using hr', by simpa [hp] using imports, ?_⟩
      exact (List.prefix_append front [d]).trans inPlace
    | true =>
      obtain ⟨hg, o', hr', imports, tail, inPlace⟩ := later
      have here : o'.imports = front ++ d :: tail := by simp [← inPlace]
      have removed := h.removed hg hr' here (.removed (by simp [here]))
      have rest : tail.map (·.normal) = (back.filter (!p ·)).map (·.normal) := by
        simpa [here] using imports
      obtain ⟨hg', o'', hr'', imports', inPlace'⟩ := removed
      simp only [List.filter_cons, hp, if_true, List.foldr_cons]
      exact ⟨hg', o'', hr'', by simp [imports', rest], inPlace'⟩

theorem mergeOnce?_eq_some (h : f.mergeOnce? o = some f') :
    ∃ first rest, (mergeGroups (o.imports.filter isMergeable)).find? canMerge =
        some (first :: rest) ∧
      f' = (rest.foldr (fun d f => f.removeImport d) f).replaceImport first
        [Import.merge first rest] := by
  unfold mergeOnce? at h
  split at h
  · next first rest found => exact ⟨first, rest, found, (Option.some.inj h).symm⟩
  · cases h

section

variable (h : Rereads (Organizing (bindingsOf ds)) files) (hn : (namesOf ds).Nodup)
include h hn

theorem Keeps.mergeOnce (k : Keeps files ds f) (hr : f.read = .ok (some o))
    (hm : f.mergeOnce? o = some f') : Keeps files ds f' := by
  obtain ⟨hf, o, hr', same⟩ := k
  obtain rfl : o = _ := by simpa [hr'] using hr
  obtain ⟨first, rest, found, rfl⟩ := mergeOnce?_eq_some hm
  obtain ⟨can, group⟩ := group_of_find? found
  obtain ⟨front, back, split, others, joined, rfl⟩ := List.filter_eq_cons_iff.mp group
  have mergeable : isMergeable first = true := by
    simp only [joins, Bool.and_eq_true] at joined
    exact joined.1
  have merged : SameMeaning o.imports _ :=
    split ▸ sameMeaning_merge (split ▸ same.names.symm.nodup hn) mergeable can
  have behind : o.imports = (front ++ [first]) ++ back := by simp [split]
  obtain ⟨hg, o', hr'', imports, tail, inPlace⟩ :=
    removeImports_readAs h hf hr' (joins first) behind
  have here : o'.imports = front ++ first :: tail := by simp [← inPlace]
  have rest : (front ++ [Import.merge first (back.filter (joins first))] ++ tail).map (·.normal) =
      (front ++ Import.merge first (back.filter (joins first)) ::
        back.filter (!joins first ·)).map (·.normal) := by
    simpa [here] using imports
  have meant := (same.trans merged).trans (sameMeaning_of_normal rest)
  have known : ∀ b ∈ (Import.merge first (back.filter (joins first))).bindings,
      b ∈ bindingsOf ds := by
    intro b hb
    refine meant.bindings.mem_iff.mp ?_
    simp [bindingsOf, hb]
  exact (h.replaced hg hr'' here (.merged (by simp [here]) mergeable known)).keeps meant

theorem Keeps.mergeAll (k : Keeps files ds f) (n : Nat) :
    ∃ f', mergeAll n f = .ok f' ∧ Keeps files ds f' := by
  induction n generalizing f with
  | zero => exact ⟨f, rfl, k⟩
  | succ n ih =>
    obtain ⟨o, hr⟩ : ∃ o, f.read = .ok (some o) := k.2.imp fun _ => And.left
    cases hm : f.mergeOnce? o with
    | none =>
      refine ⟨f, ?_, k⟩
      simp only [SourceFile.mergeAll, outline_of_read hr, bind, Except.bind, hm]
      rfl
    | some g =>
      obtain ⟨f', merged, k'⟩ := ih (k.mergeOnce h hn hr hm)
      refine ⟨f', ?_, k'⟩
      simp only [SourceFile.mergeAll, outline_of_read hr, bind, Except.bind, hm, merged]

/-- One import with its named bindings in order. -/
theorem Keeps.sortAt (k : Keeps files ds f) (hr : f.read = .ok (some o)) {i : Nat} {d : Import}
    (hd : o.imports[i]? = some d) :
    Keeps files ds (f.replaceImport d [{ d with named := sortNamed d.named }]) := by
  obtain ⟨hf, o, hr', same⟩ := k
  obtain rfl : o = _ := by simpa [hr'] using hr
  obtain ⟨front, back, split, rfl⟩ := split_of_getElem? hd
  have sorted : SameMeaning o.imports (front ++ { d with named := sortNamed d.named } :: back) :=
    split ▸ sameMeaning_sorted (split ▸ same.names.symm.nodup hn)
  have replaced := h.replaced hf hr' split (.sorted hd)
  exact replaced.keeps (by simpa using same.trans sorted)

theorem Keeps.sortFrom (k : Keeps files ds f) (n position : Nat) :
    ∃ f', sortFrom n position f = .ok f' ∧ Keeps files ds f' := by
  induction n generalizing f position with
  | zero => exact ⟨f, rfl, k⟩
  | succ n ih =>
    obtain ⟨o, hr⟩ : ∃ o, f.read = .ok (some o) := k.2.imp fun _ => And.left
    cases hd : o.imports[position]? with
    | none =>
      refine ⟨f, ?_, k⟩
      simp only [SourceFile.sortFrom, outline_of_read hr, bind, Except.bind, hd]
      rfl
    | some d =>
      have next : Keeps files ds (if sortNamed d.named = d.named then f
          else f.replaceImport d [{ d with named := sortNamed d.named }]) := by
        split
        · exact k
        · exact k.sortAt h hn hr hd
      obtain ⟨f', sorted, k'⟩ := ih next (position + 1)
      refine ⟨f', ?_, k'⟩
      simp only [SourceFile.sortFrom, outline_of_read hr, bind, Except.bind, hd]
      exact sorted

end

/-- Among import lines, organizing writes what can be read back. -/
theorem organizing_writable {l : Language} {ds₀ : List Import} {e : Edit}
    (wf₀ : ∀ d ∈ ds₀, d.WellFormed) (typed₀ : l.typed = true ∨ ∀ d ∈ ds₀, d.Untyped)
    (wf : ∀ d ∈ ds, d.WellFormed) (typed : l.typed = true ∨ ∀ d ∈ ds, d.Untyped)
    (he : Organizing (bindingsOf ds₀) (placed 0 ds) e) : e.Writable l ds.length := by
  have plain : ∀ b ∈ bindingsOf ds₀, b.Plain := by
    intro b hb
    obtain ⟨d, hd, hb⟩ := List.mem_flatMap.mp hb
    exact (wf₀ d hd).bindings_plain b hb
  have untyped : (∀ d ∈ ds₀, d.Untyped) → ∀ b ∈ bindingsOf ds₀, b.isType = false := by
    intro h b hb
    obtain ⟨d, hd, hb⟩ := List.mem_flatMap.mp hb
    exact (h d hd).bindings_isType b hb
  cases he with
  | removed inside =>
    exact ⟨by rwa [length_placed] at inside, by simp [Edit.new], .inr (by simp [Edit.new])⟩
  | sorted hd =>
    obtain ⟨inside, here, typed⟩ := of_placed_getElem? wf typed hd
    refine .replaceOne inside ?_ (typed.imp_right fun unmarked => ?_)
    · exact Import.normal_wellFormed here.quotesFit
        (here.clause.imp (fun none => by simp [none, given_none]) sortNamed_eq_nil.mpr)
        (by simp [here.attributes, given_none])
        fun b hb => here.bindings_plain b (mem_bindings_sorted hb)
    · exact Import.normal_untyped unmarked.1 fun b hb =>
        unmarked.bindings_isType b (mem_bindings_sorted hb)
  | merged hd mergeable known =>
    obtain ⟨inside, here, typed⟩ := of_placed_getElem? wf typed hd
    simp only [isMergeable, Bool.and_eq_true, Option.isNone_iff_eq_none] at mergeable
    refine .replaceOne inside ?_ ?_
    · exact Import.normal_wellFormed here.quotesFit (.inl mergeable.1.1) mergeable.2
        fun b hb => plain b (known b hb)
    · rcases typed₀ with typed₀ | untyped₀
      · exact .inl typed₀
      · exact typed.imp_right fun unmarked => Import.normal_untyped unmarked.1 fun b hb =>
          untyped untyped₀ b (known b hb)

/-- Import lines can be organized without any assumption. -/
theorem organizing_rereads {l : Language} (wf : ∀ d ∈ ds, d.WellFormed)
    (typed : l.typed = true ∨ ∀ d ∈ ds, d.Untyped) :
    Rereads (Organizing (bindingsOf ds)) fun f => ∃ ds, HoldsLines l ds f := by
  intro f o e f' hf hr allowed he
  obtain ⟨lines, h⟩ := hf
  obtain rfl : { imports := placed 0 lines } = o := by simpa [h.read] using hr
  have writable := organizing_writable wf typed h.wellFormed h.typed allowed
  exact h.reread hr writable he ⟨_, h.edited hr writable he⟩

/-- Organizing keeps the meaning of imports that bind distinct names: all bindings, all imports that
cannot be merged, and the order in which modules are first loaded. -/
theorem organize_keeps_meaning (h : Rereads (Organizing (bindingsOf o.imports)) files)
    (hf : files f) (hr : f.read = .ok (some o)) (hn : (namesOf o.imports).Nodup) :
    ∃ f' o', f.organize = .ok f' ∧ f'.read = .ok (some o') ∧
      (bindingsOf o'.imports).Perm (bindingsOf o.imports) ∧
      (unmergeable o'.imports).map inOrder = (unmergeable o.imports).map inOrder ∧
      (o'.imports.map (·.specifier)).eraseDups = (o.imports.map (·.specifier)).eraseDups := by
  have start : Keeps files o.imports f := ⟨hf, o, hr, sameMeaning_of_normal rfl⟩
  obtain ⟨merged, hm, k⟩ := start.mergeAll h hn o.imports.length
  obtain ⟨o', hr'⟩ : ∃ o, merged.read = .ok (some o) := k.2.imp fun _ => And.left
  obtain ⟨f', sorted, -, o'', hr'', same⟩ := k.sortFrom h hn o'.imports.length 0
  refine ⟨f', o'', ?_, hr'', same.bindings, same.unmergeable, same.specifiers⟩
  simp only [organize, outline_of_read hr, outline_of_read hr', bind, Except.bind, hm, sorted]

/-- Imports of one module in every form, in the order in which they stand. -/
def scatteredImports : List Import := [
  { specifier := "./shop", named := [⟨"price", some "cost", false⟩, ⟨"Item", none, true⟩] },
  { specifier := "./shop", namespaceName := some "shop" },
  { specifier := "./theme" },
  { specifier := "./shop", defaultName := some "Shop", quote := "\x27" },
  { specifier := "./shop", named := [⟨"Price", none, false⟩], typeOnly := true },
  { specifier := "./shop", named := [⟨"basket", none, false⟩], semicolon := false }]

/-- A module of these imports. -/
def scatteredModule : SourceFile where
  path := "/app/main.ts"
  text := String.intercalate "\n" (scatteredImports.map (·.render))
  saved := ""
  root := ⟨"@/", "/app"⟩

theorem scatteredModule_holdsLines :
    HoldsLines .typescript scatteredImports scatteredModule :=
  ⟨by decide, rfl, by decide, .inl rfl⟩

theorem scatteredModule_keeps_meaning :
    Rereads (Organizing (bindingsOf (placed 0 scatteredImports)))
        (fun f => ∃ ds, HoldsLines .typescript ds f) ∧
      (∃ ds, HoldsLines .typescript ds scatteredModule) ∧
      scatteredModule.read = .ok (some { imports := placed 0 scatteredImports }) ∧
      (namesOf (placed 0 scatteredImports)).Nodup ∧
      ∃ f' o', scatteredModule.organize = .ok f' ∧ f'.read = .ok (some o') ∧
        (bindingsOf o'.imports).Perm (bindingsOf (placed 0 scatteredImports)) ∧
        (unmergeable o'.imports).map inOrder =
          (unmergeable (placed 0 scatteredImports)).map inOrder ∧
        (o'.imports.map (·.specifier)).eraseDups =
          ((placed 0 scatteredImports).map (·.specifier)).eraseDups := by
  have lines := scatteredModule_holdsLines
  have rereads : Rereads (Organizing (bindingsOf (placed 0 scatteredImports)))
      fun f => ∃ ds, HoldsLines .typescript ds f :=
    organizing_rereads (wellFormed_of_placed lines.wellFormed) (.inl rfl)
  have names : (namesOf (placed 0 scatteredImports)).Nodup := by decide
  exact ⟨rereads, ⟨_, lines⟩, lines.read, names,
    organize_keeps_meaning rereads ⟨_, lines⟩ lines.read names⟩

end ModuleRepair.SourceFile
