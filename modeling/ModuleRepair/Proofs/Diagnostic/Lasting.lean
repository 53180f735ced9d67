import ModuleRepair.Proofs.Diagnostic.Sequence

/-!
# What fixes never undo

Whatever fixes do to a module, the names that it imports stay, and a specifier that was corrected
does not come back by itself. As long as no path is reported both ways, converted bindings stay
converted too.
-/
namespace ModuleRepair

open ModuleRepair.Text ModuleRepair.Script

/-! ## Imported names -/

theorem mem_localNames_sortNamed {named : List NamedImport} {n : String} :
    n ∈ (sortNamed named).map (·.localName) ↔ n ∈ named.map (·.localName) := by
  rw [((sortNamed_perm named).map _).mem_iff]
  induction named with
  | nil => rfl
  | cons b rest ih =>
    by_cases same : n = b.localName
    · simp [distinct, same]
    · have others : n ∈ ((distinct rest).filter (·.localName ≠ b.localName)).map (·.localName) ↔
          n ∈ (distinct rest).map (·.localName) := by
        simp only [List.mem_map, List.mem_filter, decide_eq_true_eq]
        constructor
        · rintro ⟨c, ⟨hc, -⟩, rfl⟩
          exact ⟨c, hc, rfl⟩
        · rintro ⟨c, hc, rfl⟩
          exact ⟨c, ⟨hc, same⟩, rfl⟩
      simp only [distinct, List.map_cons, List.mem_cons, same, false_or, others, ih]

namespace Import

variable {d : Import} {n name : String}

theorem mem_localNames : n ∈ d.localNames ↔ n ∈ d.named.map (·.localName) ∨
    given d.defaultName = some n ∨ given d.namespaceName = some n := by
  simp only [localNames, List.mem_append, Option.mem_toList, or_assoc]

theorem mem_localNames_defaultToNamed (h : n ∈ d.localNames) (name : String) :
    n ∈ (d.defaultToNamed name).localNames := by
  rw [mem_localNames] at h ⊢
  simp only [defaultToNamed, withNamed, mem_localNames_sortNamed, List.map_append,
    List.mem_append]
  rcases h with named | default | all
  · exact .inl (.inl named)
  · refine .inl (.inr ?_)
    rw [default, Option.getD_some, List.map_cons, List.map_nil,
      NamedImport.localName_renamed (given_ne_empty default)]
    exact List.mem_singleton_self n
  · exact .inr (.inr all)

theorem mem_localNames_namedToDefault? (letters : name ≠ "") {new : Import}
    (converted : d.namedToDefault? name = some new) (h : n ∈ d.localNames) :
    n ∈ new.localNames := by
  obtain ⟨free, front, b, back, split, rfl, -, rfl⟩ := namedToDefault?_eq_some converted
  rw [mem_localNames] at h ⊢
  rcases h with named | default | all
  · by_cases this : n = b.localName
    · rw [this]
      exact .inr (.inl (given_some letters))
    · refine .inl ?_
      simpa [split, this] using named
  · rw [default] at free
    cases free
  · exact .inr (.inr all)

/-- A conversion to a default import takes a binding from the braces, and nothing else. -/
theorem namedToDefault?_spec {new : Import} (h : d.namedToDefault? name = some new) :
    new.specifier = d.specifier ∧ new.named ⊆ d.named ∧ new.defaultName = some name := by
  obtain ⟨-, front, b, back, split, -, -, rfl⟩ := namedToDefault?_eq_some h
  refine ⟨rfl, ?_, rfl⟩
  rw [split]
  exact List.Sublist.subset ((List.sublist_cons_self b back).append_left front)

end Import

namespace Edit

variable {ds new : List Import} {i : Nat} {d : Import}

theorem imports_replace (h : ds[i]? = some d) (new : List Import) : ∃ front back,
    ds = front ++ d :: back ∧ (replace i new).imports ds = front ++ new ++ back := by
  obtain ⟨front, back, rfl, rfl⟩ := SourceFile.split_of_getElem? h
  exact ⟨front, back, rfl, by simp [imports]⟩

theorem forall_imports_replace {q : Import → Prop} (h : ds[i]? = some d)
    (here : q d → ∀ d' ∈ new, q d') (all : ∀ d ∈ ds, q d) :
    ∀ d ∈ (replace i new).imports ds, q d := by
  obtain ⟨front, back, split, after⟩ := imports_replace h new
  rw [after]
  rw [split] at all
  simp only [List.forall_mem_append, List.forall_mem_cons] at all ⊢
  exact ⟨⟨all.1, here all.2.1⟩, all.2.2⟩

theorem countP_imports_replace {q : Import → Bool} (h : ds[i]? = some d)
    (here : new.countP q ≤ [d].countP q) : ((replace i new).imports ds).countP q ≤ ds.countP q := by
  obtain ⟨front, back, split, after⟩ := imports_replace h new
  rw [after, split, List.append_cons front d back]
  simp only [List.countP_append]
  omega

end Edit

namespace Repairs

variable {r : Repairs} {root : AliasRoot} {own : Option String} {fixes : List Fix}
  {ds new : List Import} {i : Nat} {d : Import} {n name specifier : String}

theorem Repairing.getElem? (h : Repairing r root own fixes ds (.replace i new)) :
    ∃ d, ds[i]? = some d := by
  cases h with
  | byName _ hd => exact ⟨_, hd⟩
  | byDefault _ hd => exact ⟨_, hd⟩
  | corrected _ _ hd => exact ⟨_, hd⟩

theorem mem_names_bindByName (h : n ∈ d.localNames) (name : String) :
    n ∈ namesOf (bindByName d name) := by
  unfold bindByName
  split
  · rw [Import.mem_localNames] at h
    have apart : n ∈ ({ d with defaultName := none } : Import).localNames ∨
        n ∈ ({ d with namespaceName := none } : Import).localNames := by
      rw [Import.mem_localNames, Import.mem_localNames]
      rcases h with named | default | all
      · exact .inl (.inl named)
      · exact .inr (.inr (.inl default))
      · exact .inl (.inr (.inr all))
    simp only [namesOf, List.flatMap_cons, List.flatMap_nil, List.append_nil, List.mem_append]
    exact apart.imp_right fun there => Import.mem_localNames_defaultToNamed there name
  · simpa [namesOf] using Import.mem_localNames_defaultToNamed h name

/-- No fix takes a name away. -/
theorem names_last (letters : ∀ name specifier, .importDefault name specifier ∈ fixes → name ≠ "")
    (n : String) : Lasts r root own fixes (n ∈ namesOf ·) where
  normal ds := by
    rw [← bindingsOf_localName, bindingsOf_normal, bindingsOf_localName]
  edit ds e he hn := by
    have replace {i : Nat} {d : Import} {new : List Import} (hd : ds[i]? = some d)
        (kept : n ∈ d.localNames → n ∈ namesOf new) :
        n ∈ namesOf ((Edit.replace i new).imports ds) := by
      obtain ⟨front, back, split, after⟩ := Edit.imports_replace hd new
      rw [after]
      rw [split] at hn
      simp only [namesOf, List.flatMap_append, List.flatMap_cons, List.mem_append] at hn kept ⊢
      rcases hn with front | here | back
      · exact .inl (.inl front)
      · exact .inl (.inr (kept here))
      · exact .inr back
    cases he with
    | byName there hd isSome leads => exact replace hd fun h => mem_names_bindByName h _
    | byDefault there hd leads converted =>
      refine replace hd fun h => ?_
      simpa [namesOf] using
        Import.mem_localNames_namedToDefault? (letters _ _ there) converted h
    | added there fresh offered =>
      simp only [Edit.imports, namesOf, List.flatMap_append, List.mem_append]
      exact .inl hn
    | corrected there collapsed hd same =>
      refine replace hd fun h => ?_
      simpa [namesOf, Import.localNames] using h

/-! ## Specifiers -/

theorem dropParents_dropParents (s : List Char) :
    Specifier.dropParents (Specifier.dropParents s) = Specifier.dropParents s := by
  fun_induction Specifier.dropParents s with
  | case1 rest ih => exact ih
  | case2 s other => rw [Specifier.dropParents.eq_2 s other]

theorem dropRelative_dropParents (s : List Char) :
    Specifier.dropRelative (Specifier.dropParents s) = Specifier.dropRelative s := by
  fun_induction Specifier.dropParents s with
  | case1 rest ih => rw [ih]; rfl
  | case2 s other => rfl

theorem collapse?_eq_some {new : String} (h : root.collapse? specifier = some new) :
    ∃ below, specifier.toList = root.mark.toList ++ below ∧
      new = root.mark ++ String.ofList (Specifier.dropParents below) := by
  unfold AliasRoot.collapse? at h
  split at h
  · cases h
  · next below found =>
    simp only [afterStart?, Option.ite_none_right_eq_some, Option.some.injEq,
      List.isPrefixOf_iff_prefix] at found
    obtain ⟨⟨rest, text⟩, cut⟩ := found
    rw [← text, List.drop_left] at cut
    dsimp only at h
    split at h
    · cases h
    · exact ⟨below, by rw [← text, cut], (Option.some.inj h).symm⟩

theorem afterStart?_mark (mark : String) (rest : List Char) :
    afterStart? mark.toList (mark ++ String.ofList rest).toList = some rest := by
  simp [afterStart?]

/-- What was collapsed cannot be collapsed again. -/
theorem collapse?_collapsed {new : String} (h : root.collapse? specifier = some new) :
    root.collapse? new = none := by
  obtain ⟨below, -, rfl⟩ := collapse?_eq_some h
  rw [AliasRoot.collapse?, afterStart?_mark]
  dsimp only
  rw [dropParents_dropParents, if_pos (.inl rfl)]

/-- A corrected specifier still leads to the same path. -/
theorem tail_collapsed {new : String} (h : root.collapse? specifier = some new) :
    root.tail new = root.tail specifier := by
  obtain ⟨below, text, rfl⟩ := collapse?_eq_some h
  have behind : afterStart? root.mark.toList specifier.toList = some below := by
    simp [afterStart?, text]
  simp only [AliasRoot.tail, afterStart?_mark, behind, Option.getD_some, dropRelative_dropParents]

theorem leads_of_collapsed {new named : String} (segments : root.tail named ≠ [])
    (h : root.collapse? specifier = some new) (leads : Leads root new named) :
    Leads root specifier named := by
  have same := tail_collapsed h
  rcases leads with rfl | path
  · refine .inr ?_
    have filled : root.tail specifier ≠ [] := same ▸ segments
    simp [AliasRoot.matchesPath, same, filled]
  · refine .inr ?_
    rwa [AliasRoot.matchesPath, same] at path

theorem cut_append (front back : List Char) :
    (Path.cut (front ++ '/' :: back)).2 = (Path.cut back).2 := by
  have stop (s rest : List Char) :
      (s ++ '/' :: rest).takeWhile (· != '/') = s.takeWhile (· != '/') := by
    induction s with
    | nil => rfl
    | cons c s ih => simp only [List.cons_append, List.takeWhile_cons, ih]
  simp only [Path.cut, List.reverse_append, List.reverse_cons, List.append_assoc,
    List.singleton_append, stop]

/-- What leads to a path ends in the same segment. -/
theorem Leads.cut_tail {named : String} (h : Leads root specifier named) :
    (Path.cut (root.tail specifier)).2 = (Path.cut (root.tail named)).2 := by
  rcases h with rfl | path
  · rfl
  · simp only [AliasRoot.matchesPath, Bool.and_eq_true, Bool.or_eq_true, beq_iff_eq,
      List.isSuffixOf_iff_suffix] at path
    rcases path.2 with (same | ⟨front, text⟩) | ⟨front, text⟩
    · rw [same]
    · rw [← text, cut_append]
    · rw [← text, cut_append]

theorem leads_apart {named named' : String}
    (apart : (Path.cut (root.tail named)).2 ≠ (Path.cut (root.tail named')).2)
    (leads : Leads root specifier named) : ¬Leads root specifier named' :=
  fun leads' => apart (leads.cut_tail.symm.trans leads'.cut_tail)

/-- Whether a name is added by an import of a specifier. -/
def Adds (r : Repairs) (own : Option String) (fixes : List Fix) (specifier : String) : Prop :=
  ∃ name d, .addImport name ∈ fixes ∧ r.offered? own name = some d ∧ d.specifier = specifier

theorem specifier_bindByName {e : Import} (h : e ∈ bindByName d name) :
    e.specifier = d.specifier := by
  unfold bindByName at h
  split at h
  · simp only [List.mem_cons, List.not_mem_nil, or_false] at h
    rcases h with rfl | rfl <;> rfl
  · rw [List.mem_singleton.mp h]
    rfl

/-- A specifier that can be collapsed comes with an added import only. -/
theorem specifiers_last {collapsed : String} (collapse : root.collapse? specifier = some collapsed)
    (unadded : ¬Adds r own fixes specifier) :
    Lasts r root own fixes fun ds => ∀ d ∈ ds, d.specifier ≠ specifier where
  normal ds := by simp
  edit ds e he none := by
    cases he with
    | byName there hd isSome leads =>
      exact Edit.forall_imports_replace hd (fun other e he => specifier_bindByName he ▸ other) none
    | byDefault there hd leads converted =>
      refine Edit.forall_imports_replace hd (fun other => List.forall_mem_singleton.mpr ?_) none
      rwa [(Import.namedToDefault?_spec converted).1]
    | added there fresh offered =>
      simp only [Edit.imports, List.mem_append, List.mem_singleton, or_imp, forall_and, forall_eq]
      exact ⟨none, fun same => unadded ⟨_, _, there, offered, same⟩⟩
    | corrected there collapsed' hd same =>
      refine Edit.forall_imports_replace hd
        (fun _ => List.forall_mem_singleton.mpr fun back => ?_) none
      obtain rfl : _ = specifier := back
      rw [collapse?_collapsed collapsed'] at collapse
      cases collapse

/-! ## Default imports -/

instance (root : AliasRoot) (specifier named : String) : Decidable (Leads root specifier named) :=
  inferInstanceAs (Decidable (_ ∨ _))

/-- Whether an import binds a default and leads to the path of a specifier. -/
def bindsDefault (root : AliasRoot) (specifier : String) (d : Import) : Bool :=
  (given d.defaultName).isSome && Leads root d.specifier specifier

/-- The number of default imports that lead to the path of a specifier. -/
def defaultsTo (root : AliasRoot) (specifier : String) (ds : List Import) : Nat :=
  ds.countP (bindsDefault root specifier)

theorem bindsDefault_iff : bindsDefault root specifier d = true ↔
    (given d.defaultName).isSome = true ∧ Leads root d.specifier specifier := by
  simp [bindsDefault]

theorem defaultsTo_eq_zero : defaultsTo root specifier ds = 0 ↔
    ∀ d ∈ ds, (given d.defaultName).isSome = true → ¬Leads root d.specifier specifier := by
  simp [defaultsTo, bindsDefault_iff]

theorem defaultsTo_normal (ds : List Import) :
    defaultsTo root specifier (ds.map (·.normal)) = defaultsTo root specifier ds := by
  simp only [defaultsTo, List.countP_map]
  refine List.countP_congr fun d _ => ?_
  simp [bindsDefault, Import.normal, given_given]

theorem defaultsTo_bindByName (d : Import) (name : String) :
    defaultsTo root specifier (bindByName d name) = 0 := by
  unfold bindByName
  split <;> simp [defaultsTo, bindsDefault, Import.defaultToNamed, Import.withNamed, given_none]

/-- A single import of a kind stands for another one at most. -/
theorem countP_singleton_le {q : Import → Bool} {d d' : Import} (h : q d' = true → q d = true) :
    [d'].countP q ≤ [d].countP q := by
  rw [List.countP_singleton, List.countP_singleton]
  cases new : q d' with
  | false => exact Nat.zero_le _
  | true => simp [h new]

/-- Default imports that other reports leave alone. -/
structure Unwanted (r : Repairs) (root : AliasRoot) (own : Option String) (fixes : List Fix)
    (specifier : String) : Prop where
  segments : root.tail specifier ≠ []
  oneWay : ∀ name other, .importDefault name other ∈ fixes →
    ∀ s, Leads root s specifier → ¬Leads root s other
  unadded : ∀ name d, .addImport name ∈ fixes → r.offered? own name = some d →
    ¬(bindsDefault root specifier d = true)

/-- No default import comes to a path unless a fix asks for one. -/
theorem Unwanted.last (h : Unwanted r root own fixes specifier) (most : Nat) :
    Lasts r root own fixes (defaultsTo root specifier · ≤ most) where
  normal ds := by rw [defaultsTo_normal]
  edit ds e he few := by
    refine Nat.le_trans ?_ few
    cases he with
    | byName there hd isSome leads =>
      exact Edit.countP_imports_replace hd
        (Nat.le_trans (Nat.le_of_eq (defaultsTo_bindByName _ _)) (Nat.zero_le _))
    | byDefault there hd leads converted =>
      refine Edit.countP_imports_replace hd (countP_singleton_le fun counted => ?_)
      have toPath := (bindsDefault_iff.mp counted).2
      rw [(Import.namedToDefault?_spec converted).1] at toPath
      exact absurd leads (h.oneWay _ _ there _ toPath)
    | added there fresh offered =>
      have none := h.unadded _ _ there offered
      simp only [Edit.imports, defaultsTo, List.countP_append, List.countP_singleton, none]
      exact Nat.le_refl _
    | corrected there collapsed hd same =>
      refine Edit.countP_imports_replace hd (countP_singleton_le fun counted => ?_)
      obtain ⟨isDefault, toPath⟩ := bindsDefault_iff.mp counted
      exact bindsDefault_iff.mpr
        ⟨isDefault, same ▸ leads_of_collapsed h.segments collapsed toPath⟩

/-! ## Named imports -/

/-- Whether an import binds a local name in braces and leads to the path of a specifier. -/
def bindsNamed (root : AliasRoot) (specifier name : String) (d : Import) : Bool :=
  d.named.any (·.localName = name) && Leads root d.specifier specifier

theorem bindsNamed_iff : bindsNamed root specifier name d = true ↔
    (∃ b ∈ d.named, b.localName = name) ∧ Leads root d.specifier specifier := by
  simp [bindsNamed]

theorem bindsNamed_normal (d : Import) :
    bindsNamed root specifier name d.normal = bindsNamed root specifier name d := by
  have names : d.normal.named.any (·.localName = name) = d.named.any (·.localName = name) := by
    simp [Import.normal, Function.comp_def]
  rw [bindsNamed, bindsNamed, names]
  rfl

/-- Named imports that other reports leave alone. -/
structure Undisturbed (r : Repairs) (root : AliasRoot) (own : Option String) (fixes : List Fix)
    (name specifier : String) : Prop where
  segments : root.tail specifier ≠ []
  oneWay : ∀ name' other, .importByName name' other ∈ fixes →
    ∀ s, Leads root s specifier → ¬Leads root s other
  unadded : .addImport name ∈ fixes → r.offered? own name = none
  uncorrected : ∀ s, .correctPath s ∈ fixes → ¬Leads root s specifier

theorem localName_of_offered? {b : NamedImport} (h : r.offered? own name = some d)
    (hb : b ∈ d.named) : b.localName = name := by
  have fresh (specifier : String) (isDefault : Bool)
      (hb : b ∈ (importOf name specifier isDefault).named) : b.localName = name := by
    cases isDefault with
    | true => exact absurd (mem_of_mem_sortNamed hb) List.not_mem_nil
    | false =>
      rw [List.mem_singleton.mp (mem_of_mem_sortNamed hb)]
      simp [NamedImport.localName, given_none]
  unfold offered? at h
  split at h
  · obtain rfl := Option.some.inj h
    exact fresh _ _ hb
  · obtain ⟨e, -, rfl⟩ := Option.map_eq_some_iff.mp h
    exact fresh _ _ hb

namespace Undisturbed

variable (h : Undisturbed r root own fixes name specifier)
include h

/-- An import that binds the name is replaced by a conversion to a default import only. -/
theorem edit {i : Nat} {new : List Import} (he : Repairing r root own fixes ds (.replace i new))
    {d' : Import} (there : d' ∈ new) (binds : bindsNamed root specifier name d' = true) :
    new = [d'] ∧ ∃ d name' other, ds[i]? = some d ∧ bindsNamed root specifier name d = true ∧
      .importDefault name' other ∈ fixes ∧ d.namedToDefault? name' = some d' := by
  obtain ⟨⟨b, hb, same⟩, toPath⟩ := bindsNamed_iff.mp binds
  cases he with
  | byName asked hd isSome leads =>
    rw [specifier_bindByName there] at toPath
    exact absurd leads (h.oneWay _ _ asked _ toPath)
  | byDefault asked hd leads converted =>
    obtain rfl := List.mem_singleton.mp there
    obtain ⟨specifier_eq, inside, -⟩ := Import.namedToDefault?_spec converted
    rw [specifier_eq] at toPath
    exact ⟨rfl, _, _, _, hd, bindsNamed_iff.mpr ⟨⟨b, inside hb, same⟩, toPath⟩, asked, converted⟩
  | corrected asked collapsed hd same' =>
    obtain rfl := List.mem_singleton.mp there
    exact absurd (leads_of_collapsed h.segments collapsed toPath) (h.uncorrected _ asked)

theorem added {d' : Import} (asked : .addImport n ∈ fixes) (offered : r.offered? own n = some d') :
    ¬(bindsNamed root specifier name d' = true) := by
  intro binds
  obtain ⟨⟨b, hb, same⟩, -⟩ := bindsNamed_iff.mp binds
  obtain rfl : n = name := (localName_of_offered? offered hb).symm.trans same
  rw [h.unadded asked] at offered
  cases offered

/-- There are never more imports that bind the name. -/
theorem few_last (most : Nat) :
    Lasts r root own fixes (List.countP (bindsNamed root specifier name) · ≤ most) where
  normal ds := by
    rw [List.countP_map, List.countP_congr fun d _ => ?_]
    rw [Function.comp_apply, bindsNamed_normal]
  edit ds e he few := by
    refine Nat.le_trans ?_ few
    cases e with
    | remove i => cases he
    | add d =>
      cases he with
      | added asked fresh offered =>
        simp only [Edit.imports, List.countP_append, List.countP_singleton, h.added asked offered]
        exact Nat.le_refl _
    | replace i new =>
      obtain ⟨d, hd⟩ := Repairing.getElem? he
      refine Edit.countP_imports_replace hd ?_
      by_cases any : ∃ d' ∈ new, bindsNamed root specifier name d' = true
      · obtain ⟨d', there, binds⟩ := any
        obtain ⟨rfl, d'', -, -, hd', before, -⟩ := h.edit he there binds
        obtain rfl := Option.some.inj (hd.symm.trans hd')
        exact countP_singleton_le fun _ => before
      · have none : new.countP (bindsNamed root specifier name) = 0 :=
          List.countP_eq_zero.mpr fun d' there binds => any ⟨d', there, binds⟩
        exact none ▸ Nat.zero_le _

/-- What a conversion keeps of an import stays true of all imports that bind the name. -/
theorem every_last {kept : Import → Prop} (normal : ∀ d, kept d.normal ↔ kept d)
    (converts : ∀ d name' other new, .importDefault name' other ∈ fixes →
      d.namedToDefault? name' = some new → kept d → kept new) :
    Lasts r root own fixes fun ds =>
      ∀ d ∈ ds, bindsNamed root specifier name d = true → kept d where
  normal ds := by simp only [List.forall_mem_map, bindsNamed_normal, normal]
  edit ds e he every := by
    cases e with
    | remove i => cases he
    | add d =>
      cases he with
      | added asked fresh offered =>
        simp only [Edit.imports, List.forall_mem_append, List.forall_mem_singleton]
        exact ⟨every, fun binds => absurd binds (h.added asked offered)⟩
    | replace i new =>
      obtain ⟨d, hd⟩ := Repairing.getElem? he
      refine Edit.forall_imports_replace hd (fun here d' there binds => ?_) every
      obtain ⟨-, d'', name', other, hd', before, asked, converted⟩ := h.edit he there binds
      obtain rfl := Option.some.inj (hd.symm.trans hd')
      exact converts _ _ _ _ asked converted (here before)

/-- The imports that bind the name stay away from the module. -/
theorem away_last (p : Project) (path : String) : Lasts r root own fixes fun ds =>
    ∀ d ∈ ds, bindsNamed root specifier name d = true → LeadsAway p path d.specifier :=
  h.every_last (fun _ => .rfl) fun _ _ _ _ _ converted away =>
    (Import.namedToDefault?_spec converted).1 ▸ away

end Undisturbed

/-- Whether an import cannot be made a default import of a name: it has a default binding, or the
module that it leads to, another one, speaks against it. -/
def Converted (p : Project) (path name : String) (d : Import) : Prop :=
  given d.defaultName = none → ∃ target, p.resolve? path d.specifier = some target ∧
    target.path ≠ path ∧ offersByNameOnly target name ≠ .ok false

theorem Undisturbed.converted_last (h : Undisturbed r root own fixes name specifier)
    (letters : ∀ name specifier, .importDefault name specifier ∈ fixes → name ≠ "")
    (p : Project) (path : String) : Lasts r root own fixes fun ds =>
      ∀ d ∈ ds, bindsNamed root specifier name d = true → Converted p path name d := by
  refine h.every_last (fun d => ?_) fun d name' other new asked converted _ free => ?_
  · simp [Converted, Import.normal, given_given]
  · rw [(Import.namedToDefault?_spec converted).2.2, given_some (letters _ _ asked)] at free
    cases free

end Repairs

end ModuleRepair
