import ModuleRepair.Run.Passes

/-!
# How a phase of a run ends

A phase reads the clock forward. It ends the run only where the time is checked, at the reading that
shows that the time is over, or because the project's directory is missing.
-/
namespace ModuleRepair

theorem Phase.run_bind {α β : Type} (phase : Phase α) (next : α → Phase β) (s : Session) :
    (phase >>= next).run s = match phase.run s with
      | (.ok a, s) => (next a).run s
      | (.error e, s) => (.error e, s) := by
  simp only [ExceptT.run, bind, ExceptT.bind, ExceptT.mk, StateT.bind]
  rcases phase s with ⟨e | a, s⟩ <;> rfl

namespace Run

/-- The places where the time is checked, in the order in which a run comes to them. -/
def checkpoints : List String :=
  ["preprocessing", "diagnostic collection", "project loading", "export surface",
    "named-export normalization", "diagnostic fixes", "build-log resolution", "persisting"]

/-- Why a run may end early, and with what session, when the clock was read so often before. -/
inductive Stops (r : Run) (readings : Nat) : RunError → Session → Prop
  /-- The last reading of the clock was made by a check, and the time was over. -/
  | timedOut {phase : String} {n : Nat} {s : Session} (known : phase ∈ checkpoints)
      (later : readings ≤ n) (last : s.readings = n + 1)
      (expired : r.deadline.expired (r.clock n) = true) :
      Stops r readings (.timedOut r.deadline phase) s
  | notLoaded {s : Session} (missing : r.directory = "" ∨ r.disk.isDirectory r.directory = false) :
      Stops r readings (.notLoaded (.missingDirectory r.directory)) s

theorem Stops.earlier {r : Run} {m n : Nat} (h : m ≤ n) {e : RunError} {s : Session}
    (stops : r.Stops n e s) : r.Stops m e s := by
  cases stops with
  | timedOut known later last expired => exact .timedOut known (Nat.le_trans h later) last expired
  | notLoaded missing => exact .notLoaded missing

/-- Whether an outcome comes with a session that fits, when the clock was read so often before. -/
def Fits (r : Run) (readings : Nat) {α : Type} : Except RunError α × Session → Prop
  | (.ok _, s) => readings ≤ s.readings
  | (.error e, s) => r.Stops readings e s

/-- Whether a phase ends the run only for one of the reasons, and never turns the clock back. -/
def Punctual (r : Run) {α : Type} (phase : Phase α) : Prop :=
  ∀ s, r.Fits s.readings (phase.run s)

variable {α β : Type}

theorem punctual_pure (r : Run) (a : α) : r.Punctual (pure a) :=
  fun s => Nat.le_refl s.readings

theorem Fits.earlier {r : Run} {m n : Nat} (h : m ≤ n) {outcome : Except RunError α × Session}
    (fits : r.Fits n outcome) : r.Fits m outcome := by
  rcases outcome with ⟨e | a, s⟩
  · exact Stops.earlier h fits
  · exact Nat.le_trans h fits

theorem Punctual.bind {r : Run} {phase : Phase α} {next : α → Phase β} (h : r.Punctual phase)
    (hn : ∀ a, r.Punctual (next a)) : r.Punctual (phase >>= next) := by
  intro s
  have first := h s
  rw [Phase.run_bind]
  generalize phase.run s = outcome at first ⊢
  rcases outcome with ⟨e | a, middle⟩
  · exact first
  · exact (hn a middle).earlier first

/-- A part that does not read the clock goes through. -/
theorem punctual_of_readings {r : Run} {phase : Phase α}
    (h : ∀ s, ∃ a s', phase.run s = (.ok a, s') ∧ s'.readings = s.readings) :
    r.Punctual phase := by
  intro s
  obtain ⟨a, s', run, same⟩ := h s
  rw [run]
  exact Nat.le_of_eq same.symm

theorem punctual_get (r : Run) : r.Punctual (get : Phase Session) :=
  punctual_of_readings fun s => ⟨s, s, rfl, rfl⟩

theorem punctual_modify (r : Run) {change : Session → Session}
    (h : ∀ s, (change s).readings = s.readings) : r.Punctual (modify change : Phase Unit) :=
  punctual_of_readings fun s => ⟨(), change s, rfl, h s⟩

theorem punctual_report (r : Run) (notices : List Notice) : r.Punctual (Phase.report notices) :=
  r.punctual_modify fun _ => rfl

theorem punctual_ofStep (r : Run) (step : Step α) : r.Punctual (Phase.ofStep step) :=
  punctual_of_readings fun _ => ⟨_, _, rfl, rfl⟩

theorem punctual_mapM {r : Run} {phase : α → Phase β} (h : ∀ a, r.Punctual (phase a))
    (as : List α) : r.Punctual (as.mapM phase) := by
  induction as with
  | nil => simpa using r.punctual_pure []
  | cons a as ih =>
    rw [List.mapM_cons]
    exact (h a).bind fun b => ih.bind fun bs => r.punctual_pure (b :: bs)

theorem punctual_forIn {r : Run} {phase : α → Phase Unit} (h : ∀ a, r.Punctual (phase a))
    (as : List α) :
    r.Punctual (forIn as PUnit.unit fun a _ => do phase a; pure (.yield PUnit.unit)) := by
  induction as with
  | nil => exact r.punctual_pure _
  | cons a as ih =>
    rw [List.forIn_cons, bind_assoc]
    exact (h a).bind fun _ => by simpa using ih

/-! ## The clock -/

theorem punctual_now (r : Run) : r.Punctual r.now :=
  fun s => Nat.le_succ s.readings

theorem punctual_remaining (r : Run) : r.Punctual r.remaining := by
  unfold remaining
  split
  · exact r.punctual_now.bind fun _ => r.punctual_pure _
  · exact r.punctual_pure none

/-- What a check does. -/
theorem check_run (r : Run) (phase : String) (s : Session) :
    (r.check phase).run s =
      if r.deadline.expires.isSome then
        if r.deadline.expired (r.clock s.readings) then
          (.error (.timedOut r.deadline phase), { s with readings := s.readings + 1 })
        else (.ok (), { s with readings := s.readings + 1 })
      else (.ok (), s) := by
  unfold check
  split
  · rw [Phase.run_bind]
    change (ExceptT.run (if r.deadline.expired (r.clock s.readings) then _ else _) :
      StateM _ _) _ = _
    split <;> rfl
  · rfl

theorem punctual_check (r : Run) {phase : String} (known : phase ∈ checkpoints) :
    r.Punctual (r.check phase) := by
  intro s
  rw [check_run]
  split
  · split
    · next expired => exact .timedOut known (Nat.le_refl _) rfl expired
    · exact Nat.le_succ s.readings
  · exact Nat.le_refl s.readings

end Run

end ModuleRepair
