import ModuleRepair.Proofs.Disk.Tree

/-!
# Files that are opened for writing

Writing puts a file at a place that is no directory, and leaves every other place as it was
(`write_eq_ok_iff`). So a path that leads somewhere leads there after any number of writes, and what
could be opened for writing can be opened again (`Fills.opens_eq`).
-/
namespace ModuleRepair.Disk

open ModuleRepair.Text ModuleRepair.Path

/-- Whether a path can be opened for writing: it leads to a place that is neither a directory nor
locked. -/
def opens (d : Disk) (locked : String → Bool) (path : String) : Bool :=
  match d.locate path with
  | .ok here => !locked here && d.node? here ≠ some .directory
  | .error _ => false

/-- Files may be there that were not, or have other bytes, and that is all. -/
def Fills (may : String → Prop) (d d' : Disk) : Prop :=
  ∀ here, d'.node? here = d.node? here ∨
    may here ∧ d.node? here ≠ some .directory ∧ ∃ bytes, d'.node? here = some (.file bytes)

variable {d d' d'' : Disk} {locked : String → Bool} {path here : String} {bytes : ByteArray}

theorem opens_iff : d.opens locked path = true ↔ ∃ here, d.locate path = .ok here ∧
    locked here = false ∧ d.node? here ≠ some .directory := by
  unfold opens
  cases d.locate path <;> simp

namespace Fills

variable {may may' : String → Prop}

theorem refl (d : Disk) : d.Fills may d :=
  fun _ => .inl rfl

theorem mono (h : d.Fills may d') (more : ∀ here, may here → may' here) : d.Fills may' d' :=
  fun here => (h here).imp_right fun ⟨allowed, filled⟩ => ⟨more here allowed, filled⟩

theorem directory_iff (h : d.Fills may d') :
    d'.node? here = some .directory ↔ d.node? here = some .directory := by
  rcases h here with same | ⟨-, before, bytes, after⟩
  · rw [same]
  · simp [before, after]

theorem trans (h : d.Fills may d') (h' : d'.Fills may d'') : d.Fills may d'' := by
  intro here
  rcases h' here with same | ⟨allowed, before, after⟩
  · rw [same]
    exact h here
  · exact .inr ⟨allowed, mt h.directory_iff.mpr before, after⟩

/-- A walk goes on where there is a directory, and directories neither come nor go. -/
theorem follow_iff (h : d.Fills may d') (segments : List Segment) {start : String} :
    d'.follow segments start = .ok here ↔ d.follow segments start = .ok here := by
  have passes (d : Disk) (s : Segment) (rest : List Segment) (start : String) :
      d.follow (s :: rest) start = .ok here ↔ d.node? start = some .directory ∧
        d.follow rest (if s = [] ∨ s = ['.'] then start else if s = Path.parent then
          Path.directory start else Path.join start (String.ofList s)) = .ok here := by
    rw [follow]
    rcases d.node? start with _ | _ | _
    · simp
    · simp
    · simp only [true_and]
      split
      · rfl
      · split <;> rfl
  induction segments generalizing start with
  | nil => exact Iff.rfl
  | cons s rest ih =>
    rw [passes, passes, h.directory_iff]
    exact and_congr_right fun _ => ih

theorem locate_iff (h : d.Fills may d') :
    d'.locate path = .ok here ↔ d.locate path = .ok here := by
  unfold locate
  split
  · exact Iff.rfl
  · exact h.follow_iff _

theorem opens_eq (h : d.Fills may d') (locked : String → Bool) (path : String) :
    d'.opens locked path = d.opens locked path := by
  rw [Bool.eq_iff_iff, opens_iff, opens_iff]
  simp only [h.locate_iff, ne_eq, h.directory_iff]

/-- Where nothing may be filled, a path leads to what it led to. -/
theorem find?_eq (h : d.Fills may d') (outside : ∀ here, d.locate path = .ok here → ¬ may here) :
    d'.find? path = d.find? path := by
  refine Option.ext fun node => ?_
  simp only [find?_eq_some_iff, h.locate_iff]
  refine exists_congr fun here => and_congr_right fun located => ?_
  have same := (h here).resolve_right fun filled => outside here located filled.1
  rw [same]

end Fills

/-! ## Writing -/

theorem write_eq_ok_iff : d.write path bytes = .ok d' ↔ ∃ here, d.locate path = .ok here ∧
    d.node? here ≠ some .directory ∧ d' = d.set here (.file bytes) := by
  unfold write
  cases located : d.locate path with
  | error fault => simp [bind, Except.bind]
  | ok here =>
    -- A walk has come through the directory above.
    have above : d.node? here = none → d.node? (Path.directory here) = some .directory := by
      intro nothing
      obtain ⟨rfl, walks⟩ := locate_ok located
      have named := isName_of_mem_names path
      cases walked : names path with
      | nil =>
        rw [walked] at nothing
        cases nothing
      | cons s rest =>
        rw [walked] at walks named
        obtain ⟨name, others⟩ := List.forall_mem_cons.mp named
        rw [directory_ofNames others name]
        exact walks.1
    rcases node : d.node? here with _ | ⟨old⟩ | _
    · simp [bind, Except.bind, pure, Except.pure, node, above node, eq_comm]
    · simp [bind, Except.bind, pure, Except.pure, node, eq_comm]
    · simp [bind, Except.bind, node, throw, throwThe, MonadExceptOf.throw]

theorem fills_set (notDirectory : d.node? here ≠ some .directory) (bytes : ByteArray) :
    d.Fills (· = here) (d.set here (.file bytes)) := by
  have notRoot : here ≠ "/" := fun root => notDirectory (by rw [root, node?, if_pos rfl])
  intro other
  rw [node?_set notRoot]
  split
  · next same => exact .inr ⟨same, same ▸ notDirectory, bytes, rfl⟩
  · exact .inl rfl

/-- What can be opened is written where it lies. -/
theorem write_of_opens (h : d.opens locked path = true) (bytes : ByteArray) :
    ∃ here d', d.locate path = .ok here ∧ d.write path bytes = .ok d' ∧
      d.writeUnlocked locked path bytes = some d' ∧ d.Fills (· = here) d' ∧
      d'.node? here = some (.file bytes) := by
  obtain ⟨here, located, unlocked, notDirectory⟩ := opens_iff.mp h
  have notRoot : here ≠ "/" := fun root => notDirectory (by rw [root, node?, if_pos rfl])
  have written : d.write path bytes = .ok (d.set here (.file bytes)) :=
    write_eq_ok_iff.mpr ⟨here, located, notDirectory, rfl⟩
  refine ⟨here, _, located, written, ?_, fills_set notDirectory bytes, ?_⟩
  · rw [writeUnlocked, located, written]
    simp only [unlocked, Bool.false_eq_true, if_false]
    rfl
  · rw [node?_set notRoot, if_pos rfl]

theorem writeUnlocked_eq_none (h : d.opens locked path = false) (bytes : ByteArray) :
    d.writeUnlocked locked path bytes = none := by
  unfold writeUnlocked
  cases located : d.locate path with
  | error fault => rfl
  | ok here =>
    dsimp only
    split
    · rfl
    · next unlocked =>
      cases written : d.write path bytes with
      | error fault => rfl
      | ok d' =>
        obtain ⟨here', located', notDirectory, -⟩ := write_eq_ok_iff.mp written
        obtain rfl := Except.ok.inj (located.symm.trans located')
        have able : d.opens locked path = true :=
          opens_iff.mpr ⟨here, located, by simpa using unlocked, notDirectory⟩
        rw [h] at able
        cases able

end ModuleRepair.Disk
