import ModuleRepair.Proofs.Diagnostic.Lasting

/-!
# Fixing a file again

A second call with the same diagnostics finds nothing to add. It can find another default import of
the path that a diagnostic names, a binding that was converted to and fro, or an import that was
added with a specifier to be corrected; otherwise it does nothing (`fixFile_again`).
-/
namespace ModuleRepair.Repairs

open ModuleRepair.Script ModuleRepair.SourceFile

variable {r : Repairs} {path : String} {p q : Project} {own : Option String}
  {files : SourceFile → Prop} {fixes all : List Fix} {f f' g : SourceFile} {o o' : Outline}
  {name specifier : String}

theorem fileAfter_of_not_applies {fix : Fix} (h : ¬r.Applies p f fix) :
    fileAfter f (r.apply p f fix) = f := by
  cases applied : r.apply p f fix with
  | error e => rfl
  | ok result =>
    cases result with
    | none => rfl
    | some repaired => exact absurd ⟨repaired, applied⟩ h

theorem split_of_countP_le {ds : List Import} {counts : Import → Bool} {d : Import}
    (few : ds.countP counts ≤ 1) (hd : d ∈ ds) (here : counts d = true) : ∃ front back,
    ds = front ++ d :: back ∧ (∀ d' ∈ front, ¬(counts d' = true)) ∧
      ∀ d' ∈ back, ¬(counts d' = true) := by
  obtain ⟨front, back, rfl⟩ := List.append_of_mem hd
  rw [List.countP_append, List.countP_cons, if_pos here] at few
  exact ⟨front, back, rfl, List.countP_eq_zero.mp (by omega), List.countP_eq_zero.mp (by omega)⟩

theorem eq_of_countP_le {ds : List Import} {counts : Import → Bool} {d d' : Import}
    (few : ds.countP counts ≤ 1) (hd : d ∈ ds) (hd' : d' ∈ ds) (here : counts d = true)
    (here' : counts d' = true) : d = d' := by
  obtain ⟨front, back, rfl, front_other, back_other⟩ := split_of_countP_le few hd' here'
  rcases List.mem_append.mp hd with inside | inside
  · exact absurd here (front_other d inside)
  · rcases List.mem_cons.mp inside with same | inside
    · exact same
    · exact absurd here (back_other d inside)

section

variable (h : Rereads (Repairing r p.root own all) files)
include h

/-! ## Names and specifiers -/

/-- A missing name that is offered is imported at the end. -/
theorem FixedBy.imported (letters : ∀ fix ∈ all, ∀ name, fix.boundName? = some name → name ≠ "")
    (fixed : FixedBy r path p fixes f g) (inside : ∀ fix ∈ fixes, fix ∈ all)
    (there : .addImport name ∈ fixes) (offered : (r.offered? own name).isSome = true)
    (stands : Stands files path own f o) (hr' : g.read = .ok (some o')) :
    name ∈ namesOf o'.imports := by
  refine fixed.brings h (lasts_true ..)
    (names_last (fun name specifier asked => letters _ asked name rfl) name) ?_ inside there
    stands trivial hr'
  rintro q f o alike ⟨-, rfl, hf, hr⟩ -
  rw [← alike.root_eq] at h
  obtain ⟨o', hr', rebinds⟩ := (addImport_fixed h hf hr (inside _ there)).rebinds
  refine ⟨o', hr', ?_⟩
  have names := rebinds.names fun n same => letters _ (inside _ there) n (by rw [same]; rfl)
  rw [bindingsOf_localName, bindingsOf_localName] at names
  refine names.mem_iff.mpr (List.mem_append.mpr ?_)
  by_cases known : name ∈ namesOf o.imports
  · exact .inl known
  · rw [addedNames_new known offered]
    exact .inr (List.mem_singleton_self name)

/-- A specifier that can be corrected is gone at the end, unless an import of it is added. -/
theorem FixedBy.corrected {collapsed : String}
    (collapse : p.root.collapse? specifier = some collapsed) (unadded : ¬Adds r own all specifier)
    (fixed : FixedBy r path p fixes f g) (inside : ∀ fix ∈ fixes, fix ∈ all)
    (there : .correctPath specifier ∈ fixes) (stands : Stands files path own f o)
    (hr' : g.read = .ok (some o')) : ∀ d ∈ o'.imports, d.specifier ≠ specifier := by
  refine fixed.brings h (lasts_true ..) (specifiers_last collapse unadded) ?_ inside there
    stands trivial hr'
  rintro q f o alike ⟨-, rfl, hf, hr⟩ -
  rw [← alike.root_eq] at h collapse
  have bound : importCount specifier o.imports ≤ o.imports.length := by
    simpa [importCount] using
      List.count_le_length (l := o.imports.map Import.specifier) (a := specifier)
  obtain ⟨f', count, replaced, -, -, -, o', hr', -, gone⟩ :=
    replaceSpecifier_corrects h (inside _ there) collapse hf hr bound
  have outcome : r.apply q f (.correctPath specifier) = .ok (if count = 0 then none
      else some (f', "module path '" ++ specifier ++ "' → '" ++ collapsed ++ "'")) := by
    simp only [apply, correctPath, collapse, outline_of_read hr, bind, Except.bind, replaced]
    rfl
  by_cases untouched : count = 0
  · rw [if_pos untouched] at outcome
    refine ⟨o, by rw [outcome]; exact hr, fun d hd same => ?_⟩
    have applies : r.Applies q f (.correctPath specifier) :=
      (applies_iff hr).mpr (.corrected collapse hd same)
    simp [Applies, outcome] at applies
  · rw [if_neg untouched] at outcome
    exact ⟨o', by rw [outcome]; exact hr', gone⟩

/-! ## Default imports -/

/-- The number of fixes that report a default import of a specifier. -/
def reports (specifier : String) (fixes : List Fix) : Nat :=
  fixes.countP fun
    | .importByName _ reported => reported = specifier
    | _ => false

theorem importByName_defaultsTo (alike : Alike path p q)
    (there : .importByName name specifier ∈ all) (stands : Stands files path own f o) :
    ∃ o', (fileAfter f (r.apply q f (.importByName name specifier))).read = .ok (some o') ∧
      defaultsTo p.root specifier o'.imports ≤ defaultsTo p.root specifier o.imports - 1 := by
  obtain ⟨-, rfl, hf, hr⟩ := stands
  rw [← alike.root_eq] at h ⊢
  simp only [apply, importByName, outline_of_read hr, bind, Except.bind]
  cases found : findImport? q.root o specifier fun d => d.defaultName.isSome with
  | none =>
    refine ⟨o, hr, ?_⟩
    have zero : defaultsTo q.root specifier o.imports = 0 := by
      refine defaultsTo_eq_zero.mpr fun d hd isSome => ?_
      rw [(parsed_of_read hr d hd).given_defaultName] at isSome
      exact findImport?_eq_none.mp found d hd isSome
    omega
  | some d =>
    obtain ⟨hd, leads, isSome⟩ := findImport?_eq_some found
    obtain ⟨front, back, split⟩ := List.append_of_mem hd
    obtain ⟨-, o', hr', imports, -⟩ := h.replaced hf hr split
      (.byName there (by simp [split]) isSome leads)
    refine ⟨o', hr', ?_⟩
    have after : defaultsTo q.root specifier o'.imports =
        defaultsTo q.root specifier (front ++ bindByName d name ++ back) := by
      rw [← defaultsTo_normal, imports, defaultsTo_normal]
    have none : defaultsTo q.root specifier (bindByName d name) = 0 := defaultsTo_bindByName d name
    have given_isSome : (given d.defaultName).isSome = true := by
      rw [(parsed_of_read hr d hd).given_defaultName]
      exact isSome
    have one : bindsDefault q.root specifier d = true := bindsDefault_iff.mpr ⟨given_isSome, leads⟩
    rw [after, split]
    simp only [defaultsTo, List.countP_append, List.countP_cons, one] at none ⊢
    simp only [if_true]
    omega

/-- Every report converts one default import that leads to its path, as long as there is one. -/
theorem FixedBy.defaultsTo_le (unwanted : Unwanted r p.root own all specifier)
    (fixed : FixedBy r path p fixes f g) (inside : ∀ fix ∈ fixes, fix ∈ all)
    (stands : Stands files path own f o) (hr' : g.read = .ok (some o')) :
    defaultsTo p.root specifier o'.imports ≤
      defaultsTo p.root specifier o.imports - reports specifier fixes := by
  induction fixed generalizing o with
  | nil =>
    obtain rfl := eq_of_read hr' stands.read
    exact Nat.le_refl _
  | @cons q fix fixes f g alike rest ih =>
    obtain ⟨here, inside⟩ := List.forall_mem_cons.mp inside
    -- One fix takes as many default imports away as it reports: one or none.
    have one : ∃ o₁, Stands files path own (fileAfter f (r.apply q f fix)) o₁ ∧
        defaultsTo p.root specifier o₁.imports ≤
          defaultsTo p.root specifier o.imports - reports specifier [fix] := by
      by_cases reported : ∃ name, fix = .importByName name specifier
      · obtain ⟨name, rfl⟩ := reported
        have single : reports specifier [.importByName name specifier] = 1 := by simp [reports]
        rw [single]
        obtain ⟨o₁, stands', -⟩ := stands.fixed h (lasts_true ..) alike here trivial
        obtain ⟨o₂, hr₂, less⟩ := importByName_defaultsTo h alike here stands
        obtain rfl := eq_of_read hr₂ stands'.read
        exact ⟨o₂, stands', less⟩
      · have none : reports specifier [fix] = 0 := by
          cases fix with
          | importByName name other =>
            have ne : other ≠ specifier := fun same => reported ⟨name, by rw [same]⟩
            simp [reports, ne]
          | _ => rfl
        rw [none]
        exact stands.fixed h (unwanted.last _) alike here (Nat.le_refl _)
    obtain ⟨o₁, stands', less⟩ := one
    have least := ih inside stands' hr'
    have both : reports specifier (fix :: fixes) =
        reports specifier [fix] + reports specifier fixes := by
      rw [← List.singleton_append]
      exact List.countP_append
    omega

/-! ## Named imports -/

/-- The one import that binds the name in braces is converted, unless it cannot be. -/
theorem importDefault_converted (found : p.find? path = some f') (alike : Alike path p q)
    (undisturbed : Undisturbed r p.root own all name specifier)
    (letters : ∀ name specifier, .importDefault name specifier ∈ all → name ≠ "")
    (there : .importDefault name specifier ∈ all) (stands : Stands files path own f o)
    (few : o.imports.countP (bindsNamed p.root specifier name) ≤ 1)
    (away : ∀ d ∈ o.imports, bindsNamed p.root specifier name d = true →
      LeadsAway p path d.specifier) :
    ∃ o', (fileAfter f (r.apply q f (.importDefault name specifier))).read = .ok (some o') ∧
      ∀ d ∈ o'.imports, bindsNamed p.root specifier name d = true → Converted p path name d := by
  obtain ⟨rfl, rfl, hf, hr⟩ := stands
  have binds_iff {d : Import} : bindsNamed p.root specifier name d = true ↔
      d.named.any (·.localName = name) = true ∧ Leads q.root d.specifier specifier := by
    rw [alike.root_eq, bindsNamed, Bool.and_eq_true, decide_eq_true_eq]
  by_cases applies : r.Applies q f (.importDefault name specifier)
  · obtain ⟨⟨f'', text⟩, applied⟩ := applies
    obtain ⟨o'', d, new, ho, first, converted, rfl⟩ := importDefault_eq_ok applied
    obtain rfl : o'' = o := by simpa [outline_of_read hr] using ho.symm
    obtain ⟨hd, leads, names⟩ := findImport?_eq_some first
    obtain ⟨front, back, split, front_other, back_other⟩ :=
      split_of_countP_le few hd (binds_iff.mpr ⟨names, leads⟩)
    rw [alike.root_eq] at leads
    obtain ⟨-, o', hr', imports, -⟩ := h.replaced hf hr split
      (.byDefault there (by simp [split]) leads converted)
    rw [applied]
    refine ⟨o', hr', ?_⟩
    rw [← (undisturbed.converted_last letters p f.path).normal, imports,
      (undisturbed.converted_last letters p f.path).normal]
    simp only [List.forall_mem_append, List.forall_mem_singleton]
    refine ⟨⟨fun d' hd' binds => absurd binds (front_other d' hd'), fun _ free => ?_⟩,
      fun d' hd' binds => absurd binds (back_other d' hd')⟩
    rw [(Import.namedToDefault?_spec converted).2.2, given_some (letters _ _ there)] at free
    cases free
  · rw [fileAfter_of_not_applies applies]
    refine ⟨o, hr, fun d hd binds free => ?_⟩
    cases first : findImport? q.root o specifier fun d => d.named.any (·.localName = name) with
    | none =>
      obtain ⟨names, leads⟩ := binds_iff.mp binds
      exact absurd leads (findImport?_eq_none.mp first d hd names)
    | some d' =>
      obtain ⟨hd', leads, names⟩ := findImport?_eq_some first
      have binds' := binds_iff.mpr ⟨names, leads⟩
      obtain rfl := eq_of_countP_le few hd' hd binds' binds
      -- If no module spoke against it, the import would be converted.
      refine Classical.byContradiction fun silent =>
        applies ((applies_iff hr).mpr (.byDefault first free fun target resolved => ?_))
      rw [alike.resolve?_eq found (away d' hd binds)] at resolved
      exact Classical.byContradiction fun against =>
        silent ⟨target, resolved, away d' hd binds target resolved, against⟩

theorem FixedBy.converted (found : p.find? path = some f')
    (undisturbed : Undisturbed r p.root own all name specifier)
    (letters : ∀ name specifier, .importDefault name specifier ∈ all → name ≠ "")
    (fixed : FixedBy r path p fixes f g) (inside : ∀ fix ∈ fixes, fix ∈ all)
    (there : .importDefault name specifier ∈ fixes) (stands : Stands files path own f o)
    (few : o.imports.countP (bindsNamed p.root specifier name) ≤ 1)
    (away : ∀ d ∈ o.imports, bindsNamed p.root specifier name d = true →
      LeadsAway p path d.specifier)
    (hr' : g.read = .ok (some o')) :
    ∀ d ∈ o'.imports, bindsNamed p.root specifier name d = true → Converted p path name d :=
  fixed.brings h ((undisturbed.few_last 1).and (undisturbed.away_last p path))
    (undisturbed.converted_last letters p path)
    (fun _ _ _ alike stands ⟨few, away⟩ =>
      importDefault_converted h found alike undisturbed letters (inside _ there) stands few away)
    inside there stands ⟨few, away⟩ hr'

end

/-! ## Again -/

/-- What one call may leave to another one: nothing, where no default import leads to a reported
path, no reported binding can be converted, and no specifier is there again that was corrected.
Such a specifier comes with an added import. -/
structure Spent (r : Repairs) (p : Project) (f : SourceFile) (o : Outline) (fixes : List Fix) :
    Prop where
  byName : ∀ name specifier, .importByName name specifier ∈ fixes →
    ∀ d ∈ o.imports, d.defaultName.isSome = true → ¬Leads p.root d.specifier specifier
  byDefault : ∀ name specifier, .importDefault name specifier ∈ fixes →
    ¬Calls r p f o (.importDefault name specifier)
  corrected : ∀ specifier, .correctPath specifier ∈ fixes →
    (p.root.collapse? specifier).isSome = true → Adds r f.specifier? fixes specifier →
    ∀ d ∈ o.imports, d.specifier ≠ specifier

/-- Diagnostics that one call sees to for good. There are no more default imports of a reported
path than reports of it, and one import in braces of a reported name at most, which other reports
leave alone; no import is added that is to be corrected. -/
structure Settles (r : Repairs) (p : Project) (f : SourceFile) (ds : List Import)
    (fixes : List Fix) : Prop where
  byName : ∀ name specifier, .importByName name specifier ∈ fixes →
    Unwanted r p.root f.specifier? fixes specifier ∧
      defaultsTo p.root specifier ds ≤ reports specifier fixes
  byDefault : ∀ name specifier, .importDefault name specifier ∈ fixes →
    Undisturbed r p.root f.specifier? fixes name specifier ∧
      ds.countP (bindsNamed p.root specifier name) ≤ 1 ∧
      ∀ d ∈ ds, bindsNamed p.root specifier name d = true → LeadsAway p f.path d.specifier
  corrected : ∀ specifier, .correctPath specifier ∈ fixes → ¬Adds r f.specifier? fixes specifier

section

variable (h : Rereads (Repairing r p.root own fixes) files)
  (letters : ∀ fix ∈ fixes, ∀ name, fix.boundName? = some name → name ≠ "")
  (fixed : FixedBy r path p fixes f g) (stands : Stands files path own f o)
  (stands' : Stands files path own g o') (alike : Alike path p q)
include h letters fixed stands stands' alike

/-- Behind all fixes, nothing calls for one of them when nothing is left. -/
theorem FixedBy.spent_iff : (∀ fix ∈ fixes, ¬Calls r q g o' fix) ↔ Spent r q g o' fixes := by
  constructor
  · intro none
    refine ⟨fun name specifier there d hd isSome leads => none _ there (.byName hd isSome leads),
      fun name specifier there => none _ there, fun specifier there collapsible _ d hd same => ?_⟩
    obtain ⟨collapsed, collapse⟩ := Option.isSome_iff_exists.mp collapsible
    exact none _ there (.corrected collapse hd same)
  · intro spent fix there calls
    cases calls with
    | byName hd isSome leads => exact spent.byName _ _ there _ hd isSome leads
    | byDefault first free agreed => exact spent.byDefault _ _ there (.byDefault first free agreed)
    | added missing offered =>
      rw [stands'.own_eq] at offered
      exact missing (fixed.imported h letters (fun _ there => there) there offered stands
        stands'.read)
    | @corrected specifier collapsed d collapse hd same =>
      by_cases adds : Adds r own fixes specifier
      · rw [← stands'.own_eq] at adds
        exact spent.corrected specifier there (by rw [collapse]; rfl) adds d hd same
      · rw [alike.root_eq] at collapse
        exact fixed.corrected h collapse adds (fun _ there => there) there stands stands'.read
          d hd same

theorem FixedBy.spent (found : p.find? path = some f) (settles : Settles r p f o.imports fixes) :
    Spent r q g o' fixes where
  byName name specifier there d hd isSome leads := by
    obtain ⟨unwanted, enough⟩ := settles.byName name specifier there
    rw [stands.own_eq] at unwanted
    have few := fixed.defaultsTo_le h unwanted (fun _ there => there) stands stands'.read
    have none : defaultsTo p.root specifier o'.imports = 0 := by omega
    rw [alike.root_eq] at leads
    refine defaultsTo_eq_zero.mp none d hd ?_ leads
    rw [(parsed_of_read stands'.read d hd).given_defaultName]
    exact isSome
  byDefault name specifier there calls := by
    obtain ⟨undisturbed, few, away⟩ := settles.byDefault name specifier there
    rw [stands.own_eq] at undisturbed
    rw [stands.path_eq] at away
    have converted := fixed.converted h found undisturbed
      (fun name specifier asked => letters _ asked name rfl) (fun _ there => there) there stands
      few away stands'.read
    cases calls with
    | @byDefault _ _ d first free agreed =>
      obtain ⟨hd, leads, names⟩ := findImport?_eq_some first
      rw [alike.root_eq] at leads
      obtain ⟨target, resolved, other, against⟩ := converted d hd
        (by rw [bindsNamed, names, decide_eq_true leads]; rfl) free
      have same : q.resolve? path d.specifier = p.resolve? path d.specifier := by
        refine alike.resolve?_eq found fun target' resolved' => ?_
        obtain rfl := Option.some.inj (resolved.symm.trans resolved')
        exact other
      rw [stands'.path_eq, same] at agreed
      exact against (agreed target resolved)
  corrected specifier there _ adds := by
    rw [stands'.own_eq, ← stands.own_eq] at adds
    exact absurd adds (settles.corrected specifier there)

end

/-- A second call with the same diagnostics applies nothing exactly when the first one has left
nothing, and then the modules stay as they are. Missing names are never added again, so that what is
left is a default import of a reported path, a binding that can be converted, or an added import
with a specifier to be corrected. -/
theorem fixFile_again {w : Work} {diagnostics : List Diagnostic}
    (h : Rereads (Repairing r w.project.root f.specifier? (r.fixes diagnostics)) files)
    (found : w.project.find? path = some f) (hf : files f) (hr : f.read = .ok (some o)) :
    let once := (r.fixFile path diagnostics).run w
    let twice := (r.fixFile path diagnostics).run once.2
    ∃ f' o', once.2.project.find? path = some f' ∧ f'.read = .ok (some o') ∧
      (twice.1 = [] ↔ Spent r once.2.project f' o' (r.fixes diagnostics)) ∧
      (twice.1 = [] → twice.2.project = once.2.project) ∧
      (Settles r w.project f o.imports (r.fixes diagnostics) → twice.1 = []) := by
  intro once twice
  obtain ⟨alike, f', found', fixed⟩ : Alike path w.project once.2.project ∧
      ∃ f', once.2.project.find? path = some f' ∧
        FixedBy r path w.project (r.fixes diagnostics) f f' :=
    fixAll_fixedBy r _ (.refl path w.project) found
  have edited := fixed.edited fun _ there => there
  obtain ⟨hf', o', hr', -⟩ := (lasts_true ..).edited h hf hr edited trivial
  have stands : Stands files path f.specifier? f o := ⟨Project.path_of_find? found, rfl, hf, hr⟩
  have stands' : Stands files path f.specifier? f' o' :=
    ⟨Project.path_of_find? found', edited.specifier?_eq, hf', hr'⟩
  have letters : ∀ fix ∈ r.fixes diagnostics, ∀ name, fix.boundName? = some name → name ≠ "" := by
    intro fix there name
    obtain ⟨d, -, classified⟩ := List.mem_filterMap.mp there
    exact Fix.boundName_ne_empty classified
  obtain ⟨nothing, same⟩ : (twice.1 = [] ↔
      ∀ fix ∈ r.fixes diagnostics, ¬r.Applies once.2.project f' fix) ∧
      (twice.1 = [] → twice.2.project = once.2.project) := fixAll_nothing r _ found'
  simp only [applies_iff hr'] at nothing
  have spent := nothing.trans (fixed.spent_iff h letters stands stands' alike)
  exact ⟨f', o', found', hr', spent, same, fun settles =>
    spent.mpr (fixed.spent h letters stands stands' alike found settles)⟩

theorem settles_complaints : Settles standardRepairs faultyWork.project faultyModule
    (placed 0 faultyImports) (standardRepairs.fixes complaints) := by
  rw [fixes_complaints]
  have offered {d : Import} (h : standardRepairs.offered? faultyModule.specifier? "cn" = some d) :
      importOf "cn" "@/lib/utils" false = d := Option.some.inj h
  refine ⟨fun name specifier there => ?_, fun name specifier there => ?_,
    fun specifier there adds => ?_⟩
  · obtain ⟨rfl, rfl⟩ : name = "price" ∧ specifier = "./price" := by simpa using there
    refine ⟨⟨by decide, fun name other there s leads => ?_, fun name d there h isDefault => ?_⟩,
      by decide⟩
    · obtain ⟨rfl, rfl⟩ : name = "Cart" ∧ other = "./cart" := by simpa using there
      exact leads_apart (by decide) leads
    · obtain rfl : name = "cn" := by simpa using there
      obtain rfl := offered h
      cases isDefault
  · obtain ⟨rfl, rfl⟩ : name = "Cart" ∧ specifier = "./cart" := by simpa using there
    refine ⟨⟨by decide, fun name other there s leads => ?_, fun there => ?_,
      fun s there => ?_⟩, by decide, ?_⟩
    · obtain ⟨rfl, rfl⟩ : name = "price" ∧ other = "./price" := by simpa using there
      exact leads_apart (by decide) leads
    · simp at there
    · obtain rfl : s = "@/../theme" := by simpa using there
      decide
    · intro d hd _ target resolved
      have nowhere : ∀ d ∈ placed 0 faultyImports,
          faultyWork.project.resolve? faultyModule.path d.specifier = none := by decide
      rw [nowhere d hd] at resolved
      cases resolved
  · obtain rfl : specifier = "@/../theme" := by simpa using there
    obtain ⟨name, d, there, h, same⟩ := adds
    obtain rfl : name = "cn" := by simpa using there
    obtain rfl := offered h
    exact absurd same (by decide)

theorem faultyModule_again :
    Rereads (Repairing standardRepairs faultyWork.project.root faultyModule.specifier?
        (standardRepairs.fixes complaints))
        (fun f => ∃ ds, ds ≠ [] ∧ HoldsLines .typescript ds f) ∧
      faultyWork.project.find? "/app/main.ts" = some faultyModule ∧
      (∃ ds, ds ≠ [] ∧ HoldsLines .typescript ds faultyModule) ∧
      faultyModule.read = .ok (some { imports := placed 0 faultyImports }) ∧
      Settles standardRepairs faultyWork.project faultyModule (placed 0 faultyImports)
        (standardRepairs.fixes complaints) ∧
      let once := (standardRepairs.fixFile "/app/main.ts" complaints).run faultyWork
      let twice := (standardRepairs.fixFile "/app/main.ts" complaints).run once.2
      ∃ f' o', once.2.project.find? "/app/main.ts" = some f' ∧ f'.read = .ok (some o') ∧
        Spent standardRepairs once.2.project f' o' (standardRepairs.fixes complaints) ∧
        twice.1 = [] ∧ twice.2.project = once.2.project := by
  have lines : HoldsLines .typescript faultyImports faultyModule :=
    ⟨by decide, rfl, by decide, .inl rfl⟩
  have rereads := repairing_rereads (l := .typescript) (plain_complaints faultyModule.specifier?)
  have found : faultyWork.project.find? "/app/main.ts" = some faultyModule := rfl
  have there : ∃ ds, ds ≠ [] ∧ HoldsLines .typescript ds faultyModule := ⟨_, by decide, lines⟩
  obtain ⟨f', o', found', hr', spent, same, nothing⟩ :=
    fixFile_again rereads found there lines.read
  have done := nothing settles_complaints
  exact ⟨rereads, found, there, lines.read, settles_complaints, f', o', found', hr',
    spent.mp done, done, same done⟩

/-- A page that imports two headers, the modules of which have paths that end alike. -/
def headerPage : SourceFile where
  path := "/app/page.ts"
  text := "import Header from \"@/header\";\nimport Hdr from \"./lib/header\";\n\n" ++
    "export const x = [Header, Hdr];\n"
  saved := ""
  root := ⟨"@/", "/app"⟩

/-- A project of the page and the two modules. Only the second has a default export. -/
def headerWork : Work where
  project := ⟨"/app", ⟨"@/", "/app"⟩, .full, [
    { headerPage with path := "/app/header.ts", text := "export const Header = 1;\n" },
    { headerPage with
      path := "/app/lib/header.ts", text := "export default function Hdr() \x7b\x7d\n" },
    headerPage]⟩

/-- The complaint about the first import. -/
def headerComplaint : List Diagnostic := [
  { code := 2613
    message := "Did you mean to use 'import \x7b Header \x7d from \"@/header\"' instead?" }]

/-- Once the import that is complained about is gone, the other one is taken for it. -/
theorem headerPage_again :
    let once := (standardRepairs.fixFile "/app/page.ts" headerComplaint).run headerWork
    let twice := (standardRepairs.fixFile "/app/page.ts" headerComplaint).run once.2
    (once.2.project.find? "/app/page.ts").map (·.text) = some
        ("import \x7b Header \x7d from \"@/header\";\nimport Hdr from \"./lib/header\";\n\n" ++
          "export const x = [Header, Hdr];\n") ∧
      twice.1 = [⟨2613, "/app/page.ts",
        "default import of 'Header' from './lib/header' → named import"⟩] ∧
      (twice.2.project.find? "/app/page.ts").map (·.text) = some
        ("import \x7b Header \x7d from \"@/header\";\n" ++
          "import \x7b Header as Hdr \x7d from \"./lib/header\";\n\n" ++
          "export const x = [Header, Hdr];\n") := by
  decide +kernel

end ModuleRepair.Repairs
