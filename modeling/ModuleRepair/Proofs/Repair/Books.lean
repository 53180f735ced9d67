import Mathlib.Data.List.Forall2
import ModuleRepair.Proofs.Project.Load
import ModuleRepair.Proofs.Run.Clauses

/-!
# What a repair records

A pass answers the paths of the modules that it has changed, and counts what it has done. Here what
it does is a list of changes, each of one module (`Change.Makes`). A pass keeps its books when the
changes that lead from the project before to the one after are those that it counts (`Booked`) and
answers (`Named`); the books of passes one after the other add up (`Booked.append`).
-/
namespace ModuleRepair

open ModuleRepair.Path ModuleRepair.Script ModuleRepair.SourceFile

/-- How an import binds a name. -/
inductive Form where
  | byName
  | byDefault
  deriving DecidableEq

/-- A change of one module. -/
inductive Change where
  /-- An import that binds a name has been rewritten to bind it in another form. -/
  | rebind (form : Form) (path name : String)
  /-- The default export has become an export by name. -/
  | exportByName (path name : String)
  /-- A diagnostic has been fixed. -/
  | fix (action : FixAction)
  deriving DecidableEq

namespace Change

/-- The module that is changed. -/
def path : Change → String
  | rebind _ path _ | exportByName path _ => path
  | fix action => action.path

def isExport : Change → Bool
  | exportByName .. => true
  | _ => false

def isFix : Change → Bool
  | fix _ => true
  | _ => false

/-- What a change makes of its module in a project. -/
inductive Makes (p : Project) (f : SourceFile) : Change → SourceFile → Prop
  | byName {o : Outline} {d : Import} {name : String} (read : f.outline = .ok o)
      (there : d ∈ o.imports) (bound : d.defaultName = some name) :
      Makes p f (.rebind .byName f.path name) (f.replaceImport d [d.defaultToNamed name])
  | byDefault {o : Outline} {d new : Import} {name : String} (read : f.outline = .ok o)
      (there : d ∈ o.imports) (bound : d.namedToDefault? name = some new) :
      Makes p f (.rebind .byDefault f.path name) (f.replaceImport d [new])
  | exportByName {g : SourceFile} {o : Outline} {name : String} (read : f.outline = .ok o)
      (convertible : Normalize.convertibleName? o = some name)
      (exported : Normalize.exportByName f name = .ok g) :
      Makes p f (.exportByName f.path name) g
  | fix {r : Repairs} {fix : Fix} {g : SourceFile} {code : Int} {text : String}
      (applied : r.apply p f fix = .ok (some (g, text))) : Makes p f (.fix ⟨code, f.path, text⟩) g

/-- What changes make of a project one after the other. -/
inductive Lead : Project → List Change → Project → Prop
  | nil (p : Project) : Lead p [] p
  | cons {p q : Project} {f g : SourceFile} {c : Change} {cs : List Change}
      (found : p.find? f.path = some f) (makes : Makes p f c g) (rest : Lead (p.put g) cs q) :
      Lead p (c :: cs) q

variable {p q k : Project} {f g : SourceFile} {c : Change} {cs cs' : List Change} {path : String}

/-- A change keeps its module where it is. -/
theorem Makes.path_eq (h : Makes p f c g) : g.path = f.path ∧ c.path = f.path := by
  cases h with
  | byName => exact ⟨rfl, rfl⟩
  | byDefault => exact ⟨rfl, rfl⟩
  | exportByName read convertible exported =>
    have changes : Relation.ReflTransGen (Rewriting WritesByName) f g :=
      exportByName_rewrites exported
    exact ⟨path_of_rewritings changes, rfl⟩
  | fix applied =>
    have edited := Repairs.apply_edited (List.mem_singleton.mpr rfl) applied
    exact ⟨edited.path.1, rfl⟩

namespace Lead

theorem append (h : Lead p cs q) (h' : Lead q cs' k) : Lead p (cs ++ cs') k := by
  induction h with
  | nil => exact h'
  | cons found makes _ ih => exact .cons found makes (ih h')

/-- Modules that no change is about stay as they are. -/
theorem others (h : Lead p cs q) (other : ∀ c ∈ cs, c.path ≠ path) :
    q.find? path = p.find? path := by
  induction h with
  | nil => rfl
  | cons found makes rest ih =>
    obtain ⟨here, later⟩ := List.forall_mem_cons.mp other
    obtain ⟨same, named⟩ := makes.path_eq
    rw [ih later, Project.find?_put_of_ne _ (same ▸ named ▸ here.symm)]

/-- No module comes or goes. -/
theorem isSome_find? (h : Lead p cs q) (path : String) :
    (q.find? path).isSome = (p.find? path).isSome := by
  induction h with
  | nil => rfl
  | @cons p q f g c cs found makes rest ih =>
    rw [ih, Project.find?_replaced (makes.path_eq.1 ▸ found), Option.isSome_map]

/-- What is changed is there. -/
theorem found (h : Lead p cs q) (there : c ∈ cs) : (p.find? c.path).isSome = true := by
  induction h with
  | nil => cases there
  | cons found makes rest ih =>
    rcases List.mem_cons.mp there with rfl | later
    · simp [makes.path_eq.2, found]
    · rw [← ih later, (cons found makes (nil _)).isSome_find?]

end Lead

end Change

open Change

namespace Project

/-- The modules are in order, under normal paths of modules that can be read. -/
structure Readable (directory : String) (p : Project) : Prop where
  ordered : p.Ordered
  directory_eq : p.directory = directory
  normal : ∀ f ∈ p.files, absolute f.path = f.path
  supported : ∀ f ∈ p.files, isSupported f.path = true

variable {directory : String} {p q : Project} {f g : SourceFile} {cs : List Change}

theorem Readable.put (h : p.Readable directory) (found : p.find? f.path = some f)
    (same : g.path = f.path) : (p.put g).Readable directory where
  ordered := h.ordered.put g
  directory_eq := h.directory_eq
  normal k hk := by
    rcases mem_insert hk with rfl | hk
    · rw [same]
      exact h.normal f (List.mem_of_find?_eq_some found)
    · exact h.normal k hk
  supported k hk := by
    rcases mem_insert hk with rfl | hk
    · rw [same]
      exact h.supported f (List.mem_of_find?_eq_some found)
    · exact h.supported k hk

theorem Readable.lead (h : p.Readable directory) (course : Lead p cs q) :
    q.Readable directory := by
  induction course with
  | nil => exact h
  | cons found makes _ ih => exact ih (h.put found makes.path_eq.1)

theorem Readable.language (h : p.Readable directory) (hf : f ∈ p.files) :
    ∃ l, Language.ofPath f.path = .ok l := by
  obtain ⟨l, hl⟩ := Option.isSome_iff_exists.mp (h.supported f hf)
  exact ⟨l, by rw [Language.ofPath, hl]⟩

/-- A normal path leads to itself. -/
theorem get?_of_absolute {path : String} (normal : absolute path = path) :
    p.get? path = p.find? path := by
  rw [get?, ← normal, resolvePath_absolute]

end Project

/-- Changes lead from a state of the work to another one, and the counters say how many there are of
each kind. -/
structure Booked (w : Work) (cs : List Change) (w' : Work) : Prop where
  course : Lead w.project cs w'.project
  importsFixed : w'.stats.importsFixed = w.stats.importsFixed + cs.countP (!·.isExport)
  exportsRefactored :
    w'.stats.exportsRefactored = w.stats.exportsRefactored + cs.countP (·.isExport)
  diagnosticsResolved :
    w'.stats.diagnosticsResolved = w.stats.diagnosticsResolved + cs.countP (·.isFix)

/-- Whether paths are those of the modules that are changed. -/
def Named (paths : List String) (cs : List Change) : Prop :=
  ∀ path, path ∈ paths ↔ ∃ c ∈ cs, c.path = path

variable {w w' w'' : Work} {cs cs' : List Change} {paths paths' : List String}

namespace Booked

theorem of_same (project : w'.project = w.project) (stats : w'.stats = w.stats) :
    Booked w [] w' where
  course := project ▸ .nil _
  importsFixed := by rw [stats]; rfl
  exportsRefactored := by rw [stats]; rfl
  diagnosticsResolved := by rw [stats]; rfl

theorem refl (w : Work) : Booked w [] w :=
  of_same rfl rfl

theorem append (h : Booked w cs w') (h' : Booked w' cs' w'') : Booked w (cs ++ cs') w'' where
  course := h.course.append h'.course
  importsFixed := by rw [h'.importsFixed, h.importsFixed, List.countP_append, Nat.add_assoc]
  exportsRefactored := by
    rw [h'.exportsRefactored, h.exportsRefactored, List.countP_append, Nat.add_assoc]
  diagnosticsResolved := by
    rw [h'.diagnosticsResolved, h.diagnosticsResolved, List.countP_append, Nat.add_assoc]

end Booked

namespace Named

theorem nil : Named [] [] := by
  simp [Named]

theorem append (h : Named paths cs) (h' : Named paths' cs') :
    Named (paths ++ paths') (cs ++ cs') := by
  intro path
  simp only [List.mem_append, h path, h' path, or_and_right, exists_or]

theorem of_mem_iff (h : Named paths cs) (same : ∀ path, path ∈ paths' ↔ path ∈ paths) :
    Named paths' cs :=
  fun path => (same path).trans (h path)

theorem sorted (h : Named paths cs) : Named (sortedPaths paths) cs :=
  h.of_mem_iff fun _ => mem_sortedPaths

end Named

/-- Steps one after the other keep their books when each of them does. -/
theorem Step.mapM_booked {α β : Type} {directory : String} {step : α → Step (List String)}
    {changes : β → List Change} (fits : α → β → Prop)
    (h : ∀ a w, w.project.Readable directory → ∃ b, fits a b ∧
      Booked w (changes b) ((step a).run w).2 ∧ Named ((step a).run w).1 (changes b))
    (as : List α) (readable : w.project.Readable directory) :
    ∃ bs, List.Forall₂ fits as bs ∧ Booked w (bs.flatMap changes) ((as.mapM step).run w).2 ∧
      Named ((as.mapM step).run w).1.flatten (bs.flatMap changes) := by
  induction as generalizing w with
  | nil => exact ⟨[], .nil, .refl w, .nil⟩
  | cons a as ih =>
    obtain ⟨b, fit, booked, named⟩ := h a w readable
    obtain ⟨bs, fits, rest, namedRest⟩ := ih (readable.lead booked.course)
    refine ⟨b :: bs, .cons fit fits, ?_⟩
    rw [Step.mapM_cons, List.flatMap_cons, List.flatten_cons]
    exact ⟨booked.append rest, named.append namedRest⟩

/-! ## Rewriting imports -/

variable {form : Form} {name : String} {f g : SourceFile}

/-- Whether a result is a module with so many of its imports rewritten. -/
def Rebinds (form : Form) (name : String) (f : SourceFile)
    (result : Except LanguageError (SourceFile × Nat)) : Prop :=
  ∃ g count, result = .ok (g, count) ∧ g.path = f.path ∧ ∀ p : Project, p.Ordered →
    p.find? f.path = some f → Lead p (List.replicate count (.rebind form f.path name)) (p.put g)

theorem Rebinds.none : Rebinds form name f (.ok (f, 0)) :=
  ⟨f, 0, rfl, rfl, fun p ordered found => by rw [ordered.put_self found]; exact .nil p⟩

theorem Rebinds.one {result : Except LanguageError (SourceFile × Nat)}
    (makes : ∀ p, Makes p f (.rebind form f.path name) g) (rest : Rebinds form name g result) :
    Rebinds form name f (result.bind fun done => .ok (done.1, done.2 + 1)) := by
  obtain ⟨k, count, rfl, same, course⟩ := rest
  have here : g.path = f.path := (makes (.empty "" "" "" .full)).path_eq.1
  refine ⟨k, count + 1, rfl, same.trans here, fun p ordered found => .cons found (makes p) ?_⟩
  rw [← here, ← p.put_put same]
  exact course (p.put g) (ordered.put g) (p.find?_put g)

theorem rewriteDefaults_rebinds {l : Language} (language : Language.ofPath f.path = .ok l)
    (p : Project) (target name : String) (n : Nat) :
    Rebinds .byName name f (p.rewriteDefaults target name n f) := by
  induction n generalizing f with
  | zero => exact .none
  | succ n ih =>
    have read := outline_eq_ok language
    simp only [Project.rewriteDefaults, read, bind, Except.bind]
    split
    · exact .none
    · next d found =>
      have bound : d.defaultName = some name := by
        have fits := List.find?_some found
        simp only [Project.importsDefault, Bool.and_eq_true, decide_eq_true_eq] at fits
        exact fits.1
      exact .one (fun _ => .byName read (List.mem_of_find?_eq_some found) bound) (ih language)

theorem rewriteMismatch_rebinds {l : Language} (language : Language.ofPath f.path = .ok l)
    (p : Project) (m : Mismatch) (defining : String) (n : Nat) :
    Rebinds .byDefault m.name f (p.rewriteMismatch m defining n f) := by
  induction n generalizing f with
  | zero => exact .none
  | succ n ih =>
    have read := outline_eq_ok language
    simp only [Project.rewriteMismatch, read, bind, Except.bind]
    split
    · exact .none
    · next d found =>
      have there := List.mem_of_find?_eq_some found
      split
      · exact .none
      · next new converted => exact .one (fun _ => .byDefault read there converted) (ih language)

theorem rewriteImporter_rebinds {l : Language} (language : Language.ofPath f.path = .ok l)
    (p : Project) (target name : String) :
    Rebinds .byName name f (p.rewriteImporter target name f) := by
  simp only [Project.rewriteImporter, outline_eq_ok language, bind, Except.bind]
  exact rewriteDefaults_rebinds language p target name _

theorem rewriteConsumer_rebinds {l : Language} (language : Language.ofPath f.path = .ok l)
    (p : Project) (m : Mismatch) (defining : String) :
    Rebinds .byDefault m.name f (p.rewriteConsumer m defining f) := by
  simp only [Project.rewriteConsumer, outline_eq_ok language, bind, Except.bind]
  exact rewriteMismatch_rebinds language p m defining _

end ModuleRepair
