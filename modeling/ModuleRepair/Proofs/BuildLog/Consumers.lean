import ModuleRepair.Proofs.Import.Switch
import ModuleRepair.Proofs.Repair.Sweep
import ModuleRepair.Proofs.SourceFile.OneByOne

/-!
# The consumers of a reported name

The repair of a mismatch goes through all other modules and switches one import after the other. It
reads the module again each time; in the end all imports that bind the reported name from the module
in question are switched, and no others (`rewriteConsumer_switches`). Which imports these are does
not depend on the modules that were rewritten before (`Project.SamePaths.importsMismatch`).
-/
namespace ModuleRepair

open ModuleRepair.Script ModuleRepair.SourceFile

/-- The edits that switch a binding of a local name to the default one. -/
inductive Switching (name : String) (ds : List Import) : Edit → Prop
  | switched {i : Nat} {d new : Import} : ds[i]? = some d → d.namedToDefault? name = some new →
      Switching name ds (.replace i [new])

/-- A switched import can stand among import lines. -/
theorem switching_writable {l : Language} {name : String} {ds : List Import} {f : SourceFile}
    {e : Edit} (h : HoldsLines l ds f) (allowed : Switching name (placed 0 ds) e) :
    e.Writable l ds.length := by
  cases allowed with
  | switched hd new =>
    obtain ⟨inside, wf, typed⟩ := of_placed_getElem? h.wellFormed h.typed hd
    exact .replaceOne inside (Repairs.namedToDefault?_wellFormed wf new)
      (typed.imp_right fun untyped => Repairs.namedToDefault?_untyped untyped new)

/-- Among import lines, a switched import can be read back. -/
theorem switching_rereads {l : Language} {name : String} :
    Rereads (Switching name) fun f => ∃ ds, HoldsLines l ds f := by
  rintro f o e f' ⟨ds, h⟩ hr allowed he
  obtain rfl : { imports := placed 0 ds } = o := by simpa [h.read] using hr
  have writable := switching_writable h allowed
  exact h.reread hr writable he ⟨_, h.edited hr writable he⟩

/-! ## One consumer -/

namespace Project

variable {p : Project} {m : Mismatch} {consumer defining : String}

theorem importsMismatch_normal (d : Import) :
    p.importsMismatch m consumer defining d.normal = p.importsMismatch m consumer defining d := by
  have default : given d.normal.defaultName = given d.defaultName := given_given _
  have named : d.normal.named.any (·.localName = m.name) = d.named.any (·.localName = m.name) := by
    simp [Import.normal, List.any_map, Function.comp_def]
  rw [importsMismatch, default, named, Import.normal_specifier, importsMismatch]

/-- What imports a reported name can be switched. -/
theorem isSome_of_importsMismatch {d : Import}
    (h : p.importsMismatch m consumer defining d = true) :
    (d.namedToDefault? m.name).isSome = true := by
  simp only [importsMismatch, Bool.and_eq_true, Option.isNone_iff_eq_none] at h
  exact Import.namedToDefault?_isSome_iff.mpr h.1

/-- After that, it imports the name no more. -/
theorem importsMismatch_switched (letters : m.name ≠ "") {d new : Import}
    (h : d.namedToDefault? m.name = some new) :
    p.importsMismatch m consumer defining new = false := by
  obtain ⟨-, front, b, back, -, -, -, rfl⟩ := Import.namedToDefault?_eq_some h
  simp [importsMismatch, given_some letters]

variable {files : SourceFile → Prop} {f : SourceFile} {o : Outline}

/-- The name of a binding that is read is not empty. -/
theorem name_ne_empty_of_importsMismatch {d : Import} (hr : f.read = .ok (some o))
    (hd : d ∈ o.imports) (h : p.importsMismatch m consumer defining d = true) : m.name ≠ "" := by
  obtain ⟨l, read⟩ := outline?_of_read hr
  obtain ⟨b, hb, same⟩ : ∃ b ∈ d.named, b.localName = m.name := by
    simp only [importsMismatch, Bool.and_eq_true, List.any_eq_true, decide_eq_true_eq] at h
    exact h.1.2
  exact same ▸ localName_of_outline? read d hd b hb

/-- The imports of a reported name are rewritten one after the other. -/
theorem rewriteMismatch_eq (p : Project) (m : Mismatch) (defining : String) (n : Nat)
    (f : SourceFile) : p.rewriteMismatch m defining n f =
      rewriteWhere (p.importsMismatch m f.path defining) (·.namedToDefault? m.name) n f := by
  induction n generalizing f with
  | zero => rfl
  | succ n ih =>
    simp only [rewriteMismatch, rewriteWhere, ih]
    rfl

/-- What imports the reported name can be switched, and does not import it any more. -/
theorem switched_of_importsMismatch {d : Import} (hr : f.read = .ok (some o))
    (hd : d ∈ o.imports) (h : p.importsMismatch m consumer defining d = true) :
    ∃ new, d.namedToDefault? m.name = some new ∧
      p.importsMismatch m consumer defining new.normal = false := by
  obtain ⟨new, switched⟩ := Option.isSome_iff_exists.mp (isSome_of_importsMismatch h)
  refine ⟨new, switched, ?_⟩
  rw [importsMismatch_normal]
  exact importsMismatch_switched (name_ne_empty_of_importsMismatch hr hd h) switched

theorem mismatch_rewritesAway (p : Project) (consumer defining : String)
    (h : Rereads (Switching m.name) files) :
    RewritesAway files (·.normal) (p.importsMismatch m consumer defining)
      (·.namedToDefault? m.name) where
  kind_view := importsMismatch_normal
  view_view := Import.normal_normal
  view_normal := Import.normal_normal
  rewritten_view d := Import.namedToDefault?_normal d m.name
  step {f o front back d} hf hr split hd := by
    obtain ⟨new, switched, away⟩ := switched_of_importsMismatch hr (by simp [split]) hd
    obtain ⟨hg, o', hr', alike, -⟩ :=
      h.replaced hf hr split (.switched (by simp [split]) switched)
    exact ⟨new, o', switched, away, hg, hr', by simpa using alike⟩

theorem viewAfter_switched (q : Import → Bool) (name : String) (d : Import) :
    viewAfter (·.normal) q (·.namedToDefault? name) d =
      (if q d then d.switched name else d).normal := by
  rw [viewAfter, Import.switched]
  cases q d with
  | false => rfl
  | true => cases d.namedToDefault? name <;> rfl

/-- All imports of the reported name in a consumer are switched, and no others. -/
theorem rewriteConsumer_switches (p : Project) (defining : String)
    (h : Rereads (Switching m.name) files) (hf : files f) (ho : f.outline = .ok o) :
    ∃ g count o', p.rewriteConsumer m defining f = .ok (g, count) ∧ files g ∧
      (f.read = .ok (some o) → g.read = .ok (some o')) ∧ g.outline = .ok o' ∧
      Switches m.name o.imports (o.imports.filter (p.importsMismatch m f.path defining))
        o'.imports := by
  simp only [rewriteConsumer, ho, bind, Except.bind]
  rcases read_or_empty ho with hr | none
  · obtain ⟨g, o', rewritten, hg, hr', alike⟩ := rewriteWhere_eq_ok
      (mismatch_rewritesAway p f.path defining h) hf hr List.countP_le_length
    refine ⟨g, _, o', (rewriteMismatch_eq ..).trans rewritten, hg, fun _ => hr',
      outline_of_read hr', ?_⟩
    refine (switches_where fun d _ => isSome_of_importsMismatch).congr (alike.trans ?_)
    rw [switchedWhere, List.map_map]
    exact List.map_congr_left fun d _ => viewAfter_switched _ _ d
  · refine ⟨f, 0, o, by rw [none]; rfl, hf, id, ho, ?_⟩
    rw [none]
    exact .nil

/-- All imports of a reported name are rewritten. -/
def consumerSweep (m : Mismatch) (defining : String) : Sweep :=
  .allOf (fun p consumer => p.importsMismatch m consumer defining) (·.namedToDefault? m.name)

theorem consumerSweep_eq (m : Mismatch) (defining : String) (f : SourceFile) (p : Project) :
    consumerSweep m defining f p = p.rewriteConsumer m defining f := by
  simp only [consumerSweep, Sweep.allOf, rewriteConsumer, rewriteMismatch_eq]

/-- The repair of the consumers is such a sweep. -/
theorem consumer_eq (m : Mismatch) (defining : String) :
    BuildLog.consumer m defining =
      fun f => Attempt.rewrite (consumerSweep m defining f) := by
  funext f
  rw [funext (consumerSweep_eq m defining f)]
  rfl

/-- The imports of a consumer are rewritten in the same way while other modules change. -/
theorem SamePaths.importsMismatch_eq {q : Project} (h : p.SamePaths q) (m : Mismatch)
    (defining : String) :
    (fun consumer => q.importsMismatch m consumer defining) =
      fun consumer => p.importsMismatch m consumer defining :=
  funext fun consumer => h.importsMismatch m consumer defining

end Project

end ModuleRepair
