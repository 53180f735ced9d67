import ModuleRepair.Proofs.Disk
import ModuleRepair.Settings.Layers

/-!
# When the layers do not fit together

A variable of the environment may belong into a section. Where the file holds something else in the
place of the section, there is nothing to write into. The first variable that is at fault decides
(`applyEnvironment_fault`); writing into one place leaves every other section as it was.
-/
namespace ModuleRepair

open ModuleRepair.Decimal ModuleRepair.Text

/-- Whether entries hold something else in the place of a section. -/
def blocks (entries : Entries) (name : String) : Bool :=
  match Value.get? entries name with
  | none | some (.mapping ..) => false
  | some _ => true

/-! ## Places -/

namespace Value

theorem lookup_put_self (entries : Entries) (key : Key) (v : Value) :
    (put entries key v).lookup key = some v := by
  unfold put
  split
  · next there => exact Disk.lookup_map_self there
  · next absent =>
    rw [Option.not_isSome_iff_eq_none] at absent
    simp [List.lookup_append, absent]

theorem lookup_put_of_ne {key other : Key} (h : other ≠ key) (entries : Entries) (v : Value) :
    (put entries key v).lookup other = entries.lookup other := by
  unfold put
  split
  · exact Disk.lookup_map_of_ne h v entries
  · have unlike : (other == key) = false := beq_eq_false_iff_ne.mpr h
    simp [List.lookup_append, List.lookup_cons, unlike]

end Value

theorem Value.lookup_writeEntries (identity : Nat) (key : Key) (v : Value) (entries : Entries)
    (other : Key) : (writeEntries identity key v entries).lookup other =
      (entries.lookup other).map (write identity key v) := by
  induction entries with
  | nil => rfl
  | cons entry rest ih =>
    obtain ⟨k, w⟩ := entry
    rw [writeEntries, writeEntry, List.lookup_cons, List.lookup_cons]
    split
    · rfl
    · exact ih

theorem blocks_put_of_ne {name target : String} (h : name ≠ target) (entries : Entries)
    (v : Value) : blocks (Value.put entries (.text target) v) name = blocks entries name := by
  have other : Key.text name ≠ .text target := fun same => h (Key.text.inj same)
  rw [blocks, blocks, Value.get?, Value.lookup_put_of_ne other, ← Value.get?]

theorem blocks_put_mapping {entries inner : Entries} {name : String} {identity : Option Nat}
    (h : blocks entries name = false) (other : String) :
    blocks (Value.put entries (.text name) (.mapping inner identity)) other =
      blocks entries other := by
  by_cases same : other = name
  · rw [same, h, blocks, Value.get?, Value.lookup_put_self]
  · exact blocks_put_of_ne same entries _

/-- Writing into a mapping of a document makes no mapping of anything else. -/
theorem blocks_writeEntries (identity : Nat) (key : Key) (v : Value) (entries : Entries)
    (name : String) : blocks (Value.writeEntries identity key v entries) name =
      blocks entries name := by
  rw [blocks, blocks, Value.get?, Value.lookup_writeEntries, ← Value.get?]
  cases Value.get? entries name with
  | none => rfl
  | some w =>
    cases w with
    | mapping inner own =>
      rw [Option.map_some, Value.write]
      by_cases same : own = some identity
      · rw [if_pos same]
      · rw [if_neg same]
    | _ => rfl

theorem putInto_of_blocks {entries : Entries} {name : String} (h : blocks entries name = true)
    (key : String) (v : Value) : putInto entries name key v = .error .notASection := by
  cases there : Value.get? entries name with
  | none => simp [blocks, there] at h
  | some other =>
    cases other with
    | mapping inner => simp [blocks, there] at h
    | _ => simp only [putInto, there]

/-- A section can be written into unless something else is in its place. Every section stays one. -/
theorem putInto_of_open {entries : Entries} {name : String} (h : blocks entries name = false)
    (key : String) (v : Value) : ∃ entries', putInto entries name key v = .ok entries' ∧
      ∀ other, blocks entries' other = blocks entries other := by
  cases there : Value.get? entries name with
  | none => exact ⟨_, by rw [putInto, there], blocks_put_mapping h⟩
  | some w =>
    cases w with
    | mapping inner identity =>
      cases identity with
      | none => exact ⟨_, by rw [putInto, there], blocks_put_mapping h⟩
      | some identity =>
        exact ⟨_, by rw [putInto, there], blocks_writeEntries identity (.text key) v entries⟩
    | _ => simp [blocks, there] at h

/-- Whether writing into a place leaves sections alone: what goes into no section has a key of its
own. -/
def Apart (into : Option String) (key name : String) : Prop :=
  into = none → key ≠ name

/-- Writing into one place leaves every section a section, and everything else as it was. -/
theorem blocks_of_place {entries entries' : Entries} {into : Option String} {key name : String}
    {v : Value} (apart : Apart into key name) (placed : place entries into key v = .ok entries') :
    blocks entries' name = blocks entries name := by
  cases into with
  | none =>
    obtain rfl := Except.ok.inj placed
    exact blocks_put_of_ne (Ne.symm (apart rfl)) entries v
  | some target =>
    change putInto entries target key v = .ok entries' at placed
    cases blocked : blocks entries target with
    | true => cases (putInto_of_blocks blocked key v).symm.trans placed
    | false =>
      obtain ⟨_, written, kept⟩ := putInto_of_open blocked key v
      obtain rfl := Except.ok.inj (written.symm.trans placed)
      exact kept name

/-! ## The environment -/

/-- The fault of a variable of the environment, when it comes to be applied to entries. -/
def Variable.fault? (environment : List (String × String)) (entries : Entries) (v : Variable) :
    Option SettingsError :=
  match environment.lookup v.name with
  | none => none
  | some s =>
    match v.read s with
    | .error e => some e
    | .ok _ => if v.into.any (blocks entries) then some .notASection else none

section

variable {environment : List (String × String)} {entries : Entries} {v : Variable}

theorem applyVariable_of_fault {e : SettingsError} (h : v.fault? environment entries = some e) :
    applyVariable environment entries v = .error e := by
  unfold Variable.fault? at h
  unfold applyVariable
  split at h
  · cases h
  · next s given =>
    simp only [given]
    split at h
    · next failed =>
      obtain rfl := Option.some.inj h
      rw [failed]
      rfl
    · next x read =>
      split at h
      · next blocked =>
        obtain rfl := Option.some.inj h
        rw [read]
        cases into : v.into with
        | none => simp [into] at blocked
        | some name => exact putInto_of_blocks (by simpa [into] using blocked) v.key x
      · cases h

theorem applyVariable_of_no_fault (h : v.fault? environment entries = none) :
    ∃ entries', applyVariable environment entries v = .ok entries' ∧
      ∀ name, Apart v.into v.key name → blocks entries' name = blocks entries name := by
  unfold Variable.fault? at h
  unfold applyVariable
  split at h
  · next absent => exact ⟨entries, by rw [absent]; rfl, fun _ _ => rfl⟩
  · next s given =>
    have placed : ∃ x entries', v.read s = .ok x ∧ place entries v.into v.key x = .ok entries' := by
      split at h
      · cases h
      · next x read =>
        refine ⟨x, ?_⟩
        cases into : v.into with
        | none => exact ⟨_, read, rfl⟩
        | some name =>
          have free : blocks entries name = false := by simpa [into] using h
          obtain ⟨_, written, -⟩ := putInto_of_open free v.key x
          exact ⟨_, read, written⟩
    obtain ⟨x, entries', read, placed⟩ := placed
    refine ⟨entries', ?_, fun name apart => blocks_of_place apart placed⟩
    simp only [given, read]
    exact placed

end

/-- The faults of a variable depend on what blocks its section, and on nothing else. -/
theorem fault?_congr {environment : List (String × String)} {entries file : Entries} {v : Variable}
    (same : ∀ name, v.into = some name → blocks entries name = blocks file name) :
    v.fault? environment entries = v.fault? environment file := by
  have blocked : v.into.any (blocks entries) = v.into.any (blocks file) := by
    cases into : v.into with
    | none => rfl
    | some name => exact same name into
  simp only [Variable.fault?, blocked]

/-- The first variable at fault decides: what is applied before it changes no fault. -/
theorem foldlM_applyVariable (environment : List (String × String)) {vs : List Variable}
    (apart : ∀ v ∈ vs, ∀ u ∈ vs, ∀ name, u.into = some name → Apart v.into v.key name)
    {entries file : Entries}
    (same : ∀ v ∈ vs, ∀ name, v.into = some name → blocks entries name = blocks file name) :
    match vs.findSome? (Variable.fault? environment file) with
    | some e => vs.foldlM (applyVariable environment) entries = .error e
    | none => ∃ entries', vs.foldlM (applyVariable environment) entries = .ok entries' := by
  induction vs generalizing entries with
  | nil => exact ⟨entries, rfl⟩
  | cons v rest ih =>
    have first : v.fault? environment entries = v.fault? environment file :=
      fault?_congr (same v List.mem_cons_self)
    simp only [List.findSome?_cons, List.foldlM_cons, ← first]
    cases fault : v.fault? environment entries with
    | some e =>
      simp only [applyVariable_of_fault fault]
      rfl
    | none =>
      obtain ⟨entries', applied, kept⟩ := applyVariable_of_no_fault fault
      simp only [applied]
      refine ih (fun w hw u hu => apart w (.tail v hw) u (.tail v hu)) fun u hu name into => ?_
      rw [kept name (apart v List.mem_cons_self u (.tail v hu) name into)]
      exact same u (.tail v hu) name into

/-- The environment is at fault exactly where one of its variables is, given the file. -/
theorem applyEnvironment_fault (environment : List (String × String)) (file : Entries) :
    match environmentVariables.findSome? (Variable.fault? environment file) with
    | some e => applyEnvironment environment file = .error e
    | none => ∃ entries, applyEnvironment environment file = .ok entries := by
  have apart : ∀ v ∈ environmentVariables, ∀ u ∈ environmentVariables, ∀ name,
      u.into = some name → Apart v.into v.key name := by
    simp [environmentVariables, textVariable, Apart]
  have applied :=
    foldlM_applyVariable environment apart fun _ _ name _ => rfl (a := blocks file name)
  unfold applyEnvironment
  split at applied
  · next e first => rw [applied]; rfl
  · next none =>
    obtain ⟨entries, applied⟩ := applied
    exact ⟨_, by rw [applied]; rfl⟩

/-! ## The caller -/

/-- Choices that belong into no section can always be made. -/
theorem applyOverrides_plain {overrides : List (String × Value)}
    (plain : ∀ choice ∈ overrides, limitKeys.contains choice.1 = false) (entries : Entries) :
    ∃ entries', applyOverrides overrides entries = .ok entries' := by
  unfold applyOverrides
  induction overrides generalizing entries with
  | nil => exact ⟨entries, rfl⟩
  | cons choice rest ih =>
    obtain ⟨key, v⟩ := choice
    have outside : limitKeys.contains key = false := plain (key, v) List.mem_cons_self
    have later := fun entries => ih (fun choice there => plain choice (.tail _ there)) entries
    simp only [List.foldlM_cons]
    split
    · exact later entries
    · simp only [outside]
      exact later _

end ModuleRepair
