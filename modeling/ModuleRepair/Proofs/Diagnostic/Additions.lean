import ModuleRepair.Proofs.Diagnostic.Sequence

/-!
# Imports that fixes add

Fixes add imports of names that are not imported yet, and put imports in the place of others
(`AddsInTurn`). What the surface offers is never added to the module that it comes from. A
well-known name is added wherever it is missing, so a module imports itself exactly if the table of
these names says so (`fixFile_adds`).
-/
namespace ModuleRepair.Repairs

open ModuleRepair.Script ModuleRepair.SourceFile Relation

/-- An edit that puts imports in the place of another one. -/
def Replaces (_ : List Import) (e : Edit) : Prop :=
  ∃ i new, e = .replace i new

/-- The import that a fix adds to a module; nothing when the name is imported, or nowhere to be
found. -/
def addition? (r : Repairs) (f : SourceFile) : Fix → Option Import
  | .addImport name => f.outline.toOption.bind fun o =>
    if name ∈ namesOf o.imports then none else r.offered? f.specifier? name
  | _ => none

/-- A module with an import added, or with others in the place of some. -/
inductive Gains (f g : SourceFile) : Option Import → Prop
  | added {d : Import} : f.addImport d = .ok g → Gains f g (some d)
  | kept : Edited Replaces f g → Gains f g none

/-- The imports that fixes add to the module under a path one after the other, each in a project
that differs from a given one in this module only. -/
inductive AddsInTurn (r : Repairs) (path : String) (p : Project) :
    List Fix → SourceFile → List Import → SourceFile → Prop
  | nil {f : SourceFile} : AddsInTurn r path p [] f [] f
  | cons {q : Project} {fix : Fix} {fixes : List Fix} {f g : SourceFile} {added : List Import} :
      Alike path p q → Gains f (fileAfter f (r.apply q f fix)) (r.addition? f fix) →
      AddsInTurn r path p fixes (fileAfter f (r.apply q f fix)) added g →
      AddsInTurn r path p (fix :: fixes) f ((r.addition? f fix).toList ++ added) g

variable {r : Repairs} {path : String} {p : Project} {own : Option String} {fixes : List Fix}
  {fix : Fix} {f g : SourceFile} {o : Outline} {name : String} {d : Import}

theorem addition?_eq_some : r.addition? f fix = some d ↔ ∃ name o, fix = .addImport name ∧
    f.outline = .ok o ∧ name ∉ namesOf o.imports ∧ r.offered? f.specifier? name = some d := by
  cases fix with
  | addImport name =>
    simp only [addition?, Option.bind_eq_some_iff, Option.ite_none_left_eq_some,
      Fix.addImport.injEq]
    cases f.outline <;> simp [Except.toOption]
  | _ => simp [addition?]

/-! ## One fix -/

/-- Where no name is to be imported, imports take the place of others. -/
theorem Repairing.replaces {root : AliasRoot} {ds : List Import} {e : Edit}
    (h : Repairing r root own [fix] ds e) (other : ∀ name, fix ≠ .addImport name) :
    Replaces ds e := by
  cases h with
  | added there => exact absurd (List.mem_singleton.mp there).symm (other _)
  | _ => exact ⟨_, _, rfl⟩

theorem addImport_gains (r : Repairs) (f : SourceFile) (name : String) :
    Gains f (fileAfter f (r.addImport f name)) (r.addition? f (.addImport name)) := by
  have offers {f' : SourceFile} {text : String}
      (h : r.addImport f name = .ok (some (f', text))) :
      Gains f f' (r.addition? f (.addImport name)) := by
    obtain ⟨o, d, ho, fresh, offered, added⟩ := addImport_offers h
    rw [addition?_eq_some.mpr ⟨name, o, rfl, ho, fresh, offered⟩]
    exact .added added
  cases addition : r.addition? f (.addImport name) with
  | some d =>
    obtain ⟨_, o, ⟨⟩, ho, missing, offered⟩ := addition?_eq_some.mp addition
    obtain ⟨⟨f', text⟩, applied⟩ := addImport_of_offered ho missing offered
    rw [applied, ← addition]
    exact offers applied
  | none =>
    cases applied : r.addImport f name with
    | error e => exact .kept .refl
    | ok result =>
      cases result with
      | none => exact .kept .refl
      | some repaired => exact addition ▸ offers applied

theorem apply_gains (r : Repairs) (q : Project) (f : SourceFile) (fix : Fix) :
    Gains f (fileAfter f (r.apply q f fix)) (r.addition? f fix) := by
  have replaced (other : ∀ name, fix ≠ .addImport name) :
      Edited Replaces f (fileAfter f (r.apply q f fix)) := by
    have edited := fileAfter_edited (r := r) (p := q) (f := f) (List.mem_singleton_self fix)
    refine ReflTransGen.mono (fun f g step => ?_) _ _ edited
    obtain ⟨o, e, ho, may, he⟩ := step
    exact ⟨o, e, ho, may.replaces other, he⟩
  cases fix with
  | addImport name => exact addImport_gains r f name
  | _ => exact .kept (replaced nofun)

/-! ## All fixes of a call -/

theorem importOf_specifier (name specifier : String) (isDefault : Bool) :
    (importOf name specifier isDefault).specifier = specifier := by
  cases isDefault <;> rfl

/-- What is offered for a name comes from the module itself only if the name is well known. -/
theorem offered?_own (h : r.offered? own name = some d) (itself : own = some d.specifier) :
    ∃ s, r.special.lookup name = some s ∧ own = some s.specifier ∧
      d = importOf name s.specifier s.isDefault := by
  unfold offered? at h
  split at h
  · next s special =>
    obtain rfl := Option.some.inj h
    exact ⟨s, special, by rw [itself, importOf_specifier], rfl⟩
  · obtain ⟨e, entry, rfl⟩ := Option.map_eq_some_iff.mp h
    have other := (Option.filter_eq_some_iff.mp entry).2
    rw [importOf_specifier] at itself
    exact absurd itself (by simpa using other)

/-- An import with the specifier of the module that it is added to, for a name that is well known to
come from there. -/
def WellKnownHere (r : Repairs) (own : Option String) (fixes : List Fix) (d : Import) : Prop :=
  ∃ name s, .addImport name ∈ fixes ∧ r.special.lookup name = some s ∧
    own = some s.specifier ∧ d = importOf name s.specifier s.isDefault

theorem FixedBy.adds (h : FixedBy r path p fixes f g) : ∃ added,
    AddsInTurn r path p fixes f added g ∧
    ∀ d ∈ added, ∃ name, .addImport name ∈ fixes ∧ r.offered? f.specifier? name = some d := by
  induction h with
  | nil => exact ⟨[], .nil, nofun⟩
  | @cons q fix fixes f g alike rest ih =>
    obtain ⟨added, adds, others⟩ := ih
    refine ⟨_, .cons alike (apply_gains r q f fix) adds, fun d there => ?_⟩
    rcases List.mem_append.mp there with here | later
    · obtain ⟨name, o, rfl, -, -, offered⟩ := addition?_eq_some.mp (Option.mem_toList.mp here)
      exact ⟨name, List.mem_cons_self, offered⟩
    · obtain ⟨name, there, offered⟩ := others d later
      have edited := fileAfter_edited (r := r) (p := q) (f := f) (List.mem_singleton_self fix)
      rw [edited.specifier?_eq] at offered
      exact ⟨name, List.mem_cons_of_mem fix there, offered⟩

/-- The fixes of a call change the module under its path only. Of the imports that they add, those
of the module itself are those of names that are well known to come from there. -/
theorem fixFile_adds {w : Work} {diagnostics : List Diagnostic} (r : Repairs)
    (found : w.project.find? path = some f) :
    let after := ((r.fixFile path diagnostics).run w).2.project
    (∀ other ≠ path, after.find? other = w.project.find? other) ∧
      ∃ g added, after.find? path = some g ∧
        AddsInTurn r path w.project (r.fixes diagnostics) f added g ∧
        ∀ d ∈ added, f.specifier? = some d.specifier ↔
          WellKnownHere r f.specifier? (r.fixes diagnostics) d := by
  obtain ⟨alike, g, there, fixed⟩ :=
    fixAll_fixedBy r (upTo r.limit diagnostics) (.refl path w.project) found
  obtain ⟨added, adds, offered⟩ := FixedBy.adds fixed
  refine ⟨alike.others, g, added, there, adds, fun d hd => ⟨fun itself => ?_, ?_⟩⟩
  · obtain ⟨name, here, offered⟩ := offered d hd
    obtain ⟨s, special, own, same⟩ := offered?_own offered itself
    exact ⟨name, s, here, special, own, same⟩
  · rintro ⟨name, s, -, -, own, rfl⟩
    rw [own, importOf_specifier]

/-- The module of the well-known names, which uses one of them without declaring it. -/
def utilsModule : SourceFile where
  path := "/proj/src/lib/utils.ts"
  text := "export const badge = cn(\"badge\");\n"
  saved := ""
  root := ⟨"@/", "/proj/src"⟩

def utilsWork : Work where
  project := ⟨"/proj", ⟨"@/", "/proj/src"⟩, .full, [utilsModule]⟩

/-- The complaint about the undeclared name. -/
def utilsComplaint : List Diagnostic := [{ code := 2304, message := "Cannot find name 'cn'." }]

theorem utilsModule_adds : utilsWork.project.find? "/proj/src/lib/utils.ts" = some utilsModule ∧
    let after := ((standardRepairs.fixFile "/proj/src/lib/utils.ts" utilsComplaint).run
      utilsWork).2.project
    (∀ other ≠ "/proj/src/lib/utils.ts", after.find? other = utilsWork.project.find? other) ∧
      ∃ g added, after.find? "/proj/src/lib/utils.ts" = some g ∧
        AddsInTurn standardRepairs "/proj/src/lib/utils.ts" utilsWork.project
          (standardRepairs.fixes utilsComplaint) utilsModule added g ∧
        ∀ d ∈ added, utilsModule.specifier? = some d.specifier ↔
          WellKnownHere standardRepairs utilsModule.specifier?
            (standardRepairs.fixes utilsComplaint) d :=
  ⟨rfl, fixFile_adds standardRepairs rfl⟩

/-- A module that is well known to offer a name is made to import it from itself. -/
theorem utilsModule_imports_itself :
    let after := ((standardRepairs.fixFile "/proj/src/lib/utils.ts" utilsComplaint).run
      utilsWork).2.project
    utilsModule.specifier? = some "@/lib/utils" ∧
      standardRepairs.addition? utilsModule (.addImport "cn") =
        some (importOf "cn" "@/lib/utils" false) ∧
      (after.find? "/proj/src/lib/utils.ts").map (·.text) = some
        ("import \x7b cn \x7d from \"@/lib/utils\";\n" ++
          "export const badge = cn(\"badge\");\n") := by
  decide +kernel

end ModuleRepair.Repairs
