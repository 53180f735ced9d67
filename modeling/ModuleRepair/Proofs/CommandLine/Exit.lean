import ModuleRepair.CommandLine.Program
import ModuleRepair.Proofs.Disk.Rewrites
import ModuleRepair.Proofs.Run.Atomic
import ModuleRepair.Proofs.Settings.Layers

/-!
# How the program ends

With arguments that it accepts the program ends in one of three ways: complete, failed with a
message, or with an error that nobody reports. The last is found by the configuration alone
(`Crashes`): a file that is no document, or a section that must be written into and is none. Nothing
else that goes wrong is left unreported (`run_exit`).
-/
namespace ModuleRepair.CommandLine

open ModuleRepair.Decimal ModuleRepair.Text

/-- Whether a configuration file is a text that is no document. -/
def NoDocument (d : Disk) (config : Option String) : Prop :=
  ∃ path bytes text fault, given config = some path ∧ d.read (Path.tidy path) = .ok bytes ∧
    decode bytes = .ok text ∧
    Yaml.value (String.ofList (unifyLineEnds text.toList)) = .error fault

/-- The layer of the configuration file, which is empty without one. -/
def fileLayer (d : Disk) (config : Option String) : Except SettingsError Entries :=
  match given config with
  | some path => fileEntries d path
  | none => .ok []

/-- Whether a variable of the environment belongs into a section in whose place the file holds
something else. The variables without a section are read before. -/
structure Unwritable (environment : List (String × String)) (file : Entries) : Prop where
  readable : ∀ v ∈ environmentVariables, v.into = none →
    ∀ s, environment.lookup v.name = some s → ∃ x, v.read s = .ok x
  blocked : ∃ v ∈ environmentVariables, ∃ name, v.into = some name ∧
    (environment.lookup v.name).isSome ∧ blocks file name = true

/-- Whether the configuration ends the program with an error that is not reported. -/
def Crashes (d : Disk) (config : Option String) (environment : List (String × String)) : Prop :=
  NoDocument d config ∨ ∃ file, fileLayer d config = .ok file ∧ Unwritable environment file

/-! ## Errors that are not reported -/

section

variable {ε ε' α β : Type}

theorem bind_eq_error {x : Except ε α} {f : α → Except ε β} {e : ε} :
    x >>= f = .error e ↔ x = .error e ∨ ∃ a, x = .ok a ∧ f a = .error e := by
  cases x <;> simp [bind, Except.bind]

theorem mapError_eq_error {f : ε → ε'} {x : Except ε α} {e : ε'} :
    x.mapError f = .error e ↔ ∃ e', x = .error e' ∧ f e' = e := by
  cases x with
  | error e₀ =>
    constructor
    · intro h
      exact ⟨e₀, rfl, Except.error.inj h⟩
    · rintro ⟨_, ⟨⟩, rfl⟩
      rfl
  | ok a => exact ⟨nofun, fun ⟨_, same, _⟩ => nomatch same⟩

theorem mapError_eq_ok {f : ε → ε'} {x : Except ε α} {a : α} :
    x.mapError f = .ok a ↔ x = .ok a := by
  cases x with
  | error e => exact ⟨nofun, nofun⟩
  | ok b =>
    constructor
    · intro h
      exact congrArg _ (Except.ok.inj h)
    · rintro ⟨⟩
      rfl

end

theorem has_of_read {d : Disk} {path : String} {bytes : ByteArray} (h : d.read path = .ok bytes) :
    d.has path = true := by
  obtain ⟨here, located, node⟩ := Disk.read_eq_ok.mp h
  simp [Disk.has, Disk.find?, located, node]

/-- What a document stands for as a layer: a mapping, or nothing at all. -/
theorem document_reported {path : String} {v : Value} {e : SettingsError}
    (h : (match v with
      | .mapping entries _ => pure entries
      | v => if v.isNothing then pure [] else throw (.notAMapping path) :
        Except SettingsError Entries) = .error e) : isReported e = true := by
  split at h
  · cases h
  · split at h
    · cases h
    · obtain rfl := Except.error.inj h
      rfl

/-- A file is read as a document when it holds a text; any other error is reported. -/
theorem fileEntries_unreported (d : Disk) (path : String) :
    (∃ e, fileEntries d path = .error e ∧ isReported e = false) ↔
      ∃ bytes text fault, d.read (Path.tidy path) = .ok bytes ∧ decode bytes = .ok text ∧
        Yaml.value (String.ofList (unifyLineEnds text.toList)) = .error fault := by
  have step : ∀ e, fileEntries d path = .error e → isReported e = false →
      ∃ bytes text fault, d.read (Path.tidy path) = .ok bytes ∧ decode bytes = .ok text ∧
        Yaml.value (String.ofList (unifyLineEnds text.toList)) = .error fault := by
    intro e failed unreported
    simp only [fileEntries] at failed
    split at failed
    · obtain rfl := Except.error.inj failed
      cases unreported
    rcases bind_eq_error.mp failed with unread | ⟨bytes, read, failed⟩
    · obtain ⟨fault, -, rfl⟩ := mapError_eq_error.mp unread
      cases unreported
    rcases bind_eq_error.mp failed with undecoded | ⟨text, decoded, failed⟩
    · obtain ⟨fault, -, rfl⟩ := mapError_eq_error.mp undecoded
      cases unreported
    rcases bind_eq_error.mp failed with unparsed | ⟨v, -, failed⟩
    · obtain ⟨fault, parsed, -⟩ := mapError_eq_error.mp unparsed
      exact ⟨bytes, text, fault, mapError_eq_ok.mp read, mapError_eq_ok.mp decoded, parsed⟩
    · exact absurd (document_reported failed) (by simp [unreported])
  refine ⟨fun ⟨e, failed, unreported⟩ => step e failed unreported, ?_⟩
  rintro ⟨bytes, text, fault, read, decoded, parsed⟩
  refine ⟨.notYaml fault, ?_, rfl⟩
  have unparsed := mapError_eq_error (f := SettingsError.notYaml).mpr ⟨fault, parsed, rfl⟩
  simp only [fileEntries, has_of_read read, Bool.not_true, Bool.false_eq_true, if_false]
  refine bind_eq_error.mpr (.inr ⟨bytes, mapError_eq_ok.mpr read, ?_⟩)
  refine bind_eq_error.mpr (.inr ⟨text, mapError_eq_ok.mpr decoded, ?_⟩)
  exact bind_eq_error.mpr (.inl unparsed)

theorem fileLayer_unreported (d : Disk) (config : Option String) :
    (∃ e, fileLayer d config = .error e ∧ isReported e = false) ↔ NoDocument d config := by
  unfold fileLayer NoDocument
  cases given config with
  | none => simp
  | some path => simp [fileEntries_unreported]

/-- The variables without a section stand in front of the others. -/
theorem environmentVariables_ordered :
    environmentVariables.Pairwise fun v u => u.into = none → v.into = none := by
  simp [environmentVariables, textVariable]

/-- A variable that cannot be read has no section, and holds no number. -/
theorem read_eq_error {v : Variable} (listed : v ∈ environmentVariables) {s : String}
    {e : SettingsError} (h : v.read s = .error e) : v.into = none ∧ e = .notANumber s := by
  simp only [environmentVariables, textVariable, List.mem_cons, List.not_mem_nil, or_false]
    at listed
  rcases listed with rfl | rfl | rfl | rfl | rfl | rfl | rfl
  case inr.inr.inl =>
    dsimp only at h
    split at h
    · cases h
    · exact ⟨rfl, (Except.error.inj h).symm⟩
  all_goals cases h

/-- The faults of the environment. -/
theorem fault_eq {environment : List (String × String)} {file : Entries} {v : Variable}
    (listed : v ∈ environmentVariables) {e : SettingsError}
    (h : v.fault? environment file = some e) :
    (e = .notASection ∧ v.into.any (blocks file) = true) ∨
      v.into = none ∧ ∃ s, environment.lookup v.name = some s ∧ v.read s = .error e ∧
        isReported e = true := by
  simp only [Variable.fault?] at h
  split at h
  · cases h
  next s given =>
  split at h
  · next failed =>
    obtain rfl := Option.some.inj h
    obtain ⟨plain, rfl⟩ := read_eq_error listed failed
    exact .inr ⟨plain, s, given, failed, rfl⟩
  · split at h
    · next blocked => exact .inl ⟨(Option.some.inj h).symm, blocked⟩
    · cases h

/-- When the first fault of the environment is that something is in the place of a section, all
variables without a section could be read: they come before the one at fault. -/
theorem unwritable_of_first {environment : List (String × String)} {file : Entries}
    (h : environmentVariables.findSome? (Variable.fault? environment file) = some .notASection) :
    Unwritable environment file := by
  obtain ⟨front, v, back, table, fault, clear⟩ := List.findSome?_eq_some_iff.mp h
  have listed : v ∈ environmentVariables := by simp [table]
  rcases fault_eq listed fault with ⟨-, blocked⟩ | ⟨-, -, -, -, reported⟩
  · obtain ⟨name, into⟩ : ∃ name, v.into = some name := by
      cases into : v.into with
      | none => simp [into] at blocked
      | some name => exact ⟨name, rfl⟩
    have given : (environment.lookup v.name).isSome := by
      unfold Variable.fault? at fault
      split at fault
      · cases fault
      · next given => simp [given]
    refine ⟨fun u there plain s given' => ?_, v, listed, name, into, given, ?_⟩
    · have before : u ∈ front := by
        have ordered := table ▸ environmentVariables_ordered
        rw [List.pairwise_append, List.pairwise_cons] at ordered
        rw [table, List.mem_append, List.mem_cons] at there
        rcases there with there | rfl | there
        · exact there
        · simp [into] at plain
        · simp [ordered.2.1.1 u there plain] at into
      have fine := clear u before
      simp only [Variable.fault?, given'] at fine
      split at fine
      · cases fine
      · next x read => exact ⟨x, read⟩
    · simpa [into] using blocked
  · cases reported

/-- Something is in the place of a section exactly when the first fault of the environment is
that. -/
theorem notASection_iff (environment : List (String × String)) (file : Entries) :
    environmentVariables.findSome? (Variable.fault? environment file) = some .notASection ↔
      Unwritable environment file := by
  refine ⟨unwritable_of_first, ?_⟩
  rintro ⟨readable, v, listed, name, into, given, blocked⟩
  have found : (environmentVariables.findSome? (Variable.fault? environment file)).isSome := by
    rw [List.findSome?_isSome_iff]
    obtain ⟨s, given⟩ := Option.isSome_iff_exists.mp given
    refine ⟨v, listed, ?_⟩
    simp only [Variable.fault?, given, into, Option.any_some, blocked, if_true]
    split <;> rfl
  obtain ⟨e, first⟩ := Option.isSome_iff_exists.mp found
  obtain ⟨u, there, fault⟩ := List.exists_of_findSome?_eq_some first
  rcases fault_eq there fault with ⟨rfl, -⟩ | ⟨plain, s, given', failed, -⟩
  · exact first
  · obtain ⟨x, read⟩ := readable u there plain s given'
    cases failed.symm.trans read

/-! ## The settings of a run -/

theorem overrides_plain (o : Options) :
    ∀ choice ∈ o.overrides, limitKeys.contains choice.1 = false := by
  simp [Options.overrides, limitKeys]

/-- The layers above the file fail with an error that is not reported exactly when a section cannot
be written into. -/
theorem layers_unreported (file : Entries) (environment : List (String × String)) (o : Options) :
    (∃ e, layers file environment o.overrides = .error e ∧ isReported e = false) ↔
      Unwritable environment file := by
  rw [← notASection_iff]
  have applied := applyEnvironment_fault environment file
  split at applied
  · next e first =>
    have failed : layers file environment o.overrides = .error e := by
      rw [layers, applied]
      rfl
    rw [failed, first]
    obtain ⟨v, listed, fault⟩ := List.exists_of_findSome?_eq_some first
    rcases fault_eq listed fault with ⟨rfl, -⟩ | ⟨-, s, -, -, reported⟩
    · exact ⟨fun _ => rfl, fun _ => ⟨_, rfl, rfl⟩⟩
    · refine ⟨fun ⟨e', same, unreported⟩ => ?_, fun same => ?_⟩
      · obtain rfl := Except.error.inj same
        simp [reported] at unreported
      · obtain rfl := Option.some.inj same
        cases reported
  · next none =>
    obtain ⟨entries, applied⟩ := applied
    obtain ⟨entries', chosen⟩ := applyOverrides_plain (overrides_plain o) entries
    have fine : layers file environment o.overrides = .ok entries' := by
      rw [layers, applied]
      exact chosen
    simp [fine, none]

theorem load_eq (d : Disk) (config : Option String) (environment : List (String × String))
    (overrides : List (String × Value)) :
    Settings.load d config environment overrides = fileLayer d config >>= fun file =>
      layers file environment overrides >>= fun entries =>
        (Settings.ofEntries entries).mapError .invalid := by
  unfold Settings.load fileLayer
  cases given config <;> rfl

/-- The configuration ends the program without a report exactly in two cases. -/
theorem load_unreported (d : Disk) (o : Options) (environment : List (String × String)) :
    (∃ e, Settings.load d o.config environment o.overrides = .error e ∧ isReported e = false) ↔
      Crashes d o.config environment := by
  rw [load_eq, Crashes, ← fileLayer_unreported]
  constructor
  · rintro ⟨e, failed, unreported⟩
    rcases bind_eq_error.mp failed with failed | ⟨file, read, failed⟩
    · exact .inl ⟨e, failed, unreported⟩
    rcases bind_eq_error.mp failed with failed | ⟨entries, -, failed⟩
    · exact .inr ⟨file, read, (layers_unreported file environment o).mp ⟨e, failed, unreported⟩⟩
    · obtain ⟨problems, -, rfl⟩ := mapError_eq_error.mp failed
      cases unreported
  · rintro (⟨e, failed, unreported⟩ | ⟨file, read, unwritable⟩)
    · exact ⟨e, bind_eq_error.mpr (.inl failed), unreported⟩
    · obtain ⟨e, failed, unreported⟩ := (layers_unreported file environment o).mpr unwritable
      exact ⟨e, bind_eq_error.mpr (.inr ⟨file, read, bind_eq_error.mpr (.inl failed)⟩), unreported⟩

/-! ## The end of a program -/

/-- The job that arguments and settings ask for. -/
def jobOf (a : Arguments) (settings : Settings) (buildLog : String) : Job :=
  let source := sourceOf a.options settings
  { directory := a.project, files := a.files, buildLog, settings, source }

/-- The settings that the program starts with. -/
def settingsOf (start : Start) (a : Arguments) (d : Disk) : Except SettingsError Settings :=
  Settings.load d a.options.config start.environment a.options.overrides

/-- What ends the program early. -/
inductive Fails (start : Start) (a : Arguments) (tools : Tools) (clock : Nat → Float) (d : Disk) :
    Prop
  | notConfigured {e : SettingsError} (failed : settingsOf start a d = .error e)
  | noBuildLog {fault : DiskFault}
      (unread : buildLogText d start.input a.options.buildLog = .error fault)
  | homeless (missing : a.project = "" ∨ d.isDirectory a.project = false)
  | timedOut {settings : Settings} {buildLog : String} {deadline : Deadline} {phase : String}
      (configured : settingsOf start a d = .ok settings)
      (read : buildLogText d start.input a.options.buildLog = .ok buildLog)
      (stopped : ((jobOf a settings buildLog).run tools clock d).error =
        some (.timedOut deadline phase))

/-- A run fails without its directory and when its time is over, and is complete otherwise. -/
theorem finish_exit (job : Job) (tools : Tools) (clock : Nat → Float) (d : Disk) :
    let ended := job.run tools clock d
    let stopped := ∃ deadline phase, ended.error = some (.timedOut deadline phase)
    ((finish ended).exit = .failed ∧ (job.Homeless d ∨ stopped)) ∨
      (finish ended).exit = .complete ∧ ¬job.Homeless d ∧ ¬stopped := by
  have ends := job.run_ends tools clock d
  generalize job.run tools clock d = ended at ends
  cases ends with
  | done found => exact .inr ⟨rfl, found, fun ⟨_, _, stopped⟩ => nomatch stopped⟩
  | timedOut found => exact .inl ⟨rfl, .inr ⟨_, _, rfl⟩⟩
  | homeless missing => exact .inl ⟨rfl, .inl missing⟩

section

variable {start : Start} {a : Arguments} {tools : Tools} {clock : Nat → Float} {d : Disk}
  {settings : Settings} {buildLog : String} {e : SettingsError} {fault : DiskFault}
  (accepted : Arguments.ofTexts start.arguments = .ok a)
include accepted

theorem run_unconfigured (failed : settingsOf start a d = .error e) :
    (run start tools clock d).exit = if isReported e then .failed else .crashed e := by
  simp only [settingsOf] at failed
  simp only [run, accepted, failed]
  split <;> rfl

theorem run_unread (configured : settingsOf start a d = .ok settings)
    (unread : buildLogText d start.input a.options.buildLog = .error fault) :
    (run start tools clock d).exit = .failed := by
  simp only [settingsOf] at configured
  simp only [run, accepted, configured, unread, notStarted]

theorem run_started (configured : settingsOf start a d = .ok settings)
    (read : buildLogText d start.input a.options.buildLog = .ok buildLog) :
    run start tools clock d = finish ((jobOf a settings buildLog).run tools clock d) := by
  simp only [settingsOf] at configured
  simp only [run, accepted, configured, read]
  rfl

end

/-- With arguments that it accepts, whatever the configuration, the environment and the disk: the
program ends with an error that is not reported exactly when the configuration makes it, fails
exactly when it cannot start, has no project or is out of time, and is complete otherwise. -/
theorem run_exit {start : Start} {a : Arguments}
    (accepted : Arguments.ofTexts start.arguments = .ok a) (tools : Tools) (clock : Nat → Float)
    (d : Disk) :
    let exit := (run start tools clock d).exit
    let crashes := Crashes d a.options.config start.environment
    let fails := Fails start a tools clock d
    ((∃ e, exit = .crashed e) ↔ crashes) ∧ (exit = .failed ↔ ¬crashes ∧ fails) ∧
      (exit = .complete ↔ ¬crashes ∧ ¬fails) := by
  intro exit crashes fails
  have unreported : (∃ e, settingsOf start a d = .error e ∧ isReported e = false) ↔ crashes :=
    load_unreported d a.options start.environment
  cases configured : settingsOf start a d with
  | error e =>
    have ran : exit = if isReported e then .failed else .crashed e :=
      run_unconfigured accepted configured
    have failing : fails := .notConfigured configured
    rw [configured] at unreported
    cases reported : isReported e with
    | false =>
      have crashing : crashes := unreported.mp ⟨e, rfl, reported⟩
      simp [ran, reported, crashing]
    | true =>
      have calm : ¬crashes := fun crashing => by
        obtain ⟨e', same, other⟩ := unreported.mpr crashing
        obtain rfl := Except.error.inj same
        simp [reported] at other
      simp [ran, reported, calm, failing]
  | ok settings =>
    have calm : ¬crashes := fun crashing => by
      obtain ⟨e, failed, -⟩ := unreported.mpr crashing
      cases configured.symm.trans failed
    cases read : buildLogText d start.input a.options.buildLog with
    | error fault =>
      have ran : exit = .failed := run_unread accepted configured read
      have failing : fails := .noBuildLog read
      simp [ran, calm, failing]
    | ok buildLog =>
      have ran : exit = (finish ((jobOf a settings buildLog).run tools clock d)).exit :=
        congrArg Finished.exit (run_started accepted configured read)
      rcases finish_exit (jobOf a settings buildLog) tools clock d with
        ⟨failed, why⟩ | ⟨done, found, inTime⟩
      · have failing : fails := by
          rcases why with missing | ⟨deadline, phase, stopped⟩
          · exact .homeless missing
          · exact .timedOut configured read stopped
        simp [ran, failed, calm, failing]
      · have fine : ¬fails := by
          rintro (failed | unread | missing | ⟨configured', read', stopped⟩)
          · cases configured.symm.trans failed
          · cases read.symm.trans unread
          · exact found missing
          · obtain rfl := Except.ok.inj (configured.symm.trans configured')
            obtain rfl := Except.ok.inj (read.symm.trans read')
            exact inTime ⟨_, _, stopped⟩
        simp [ran, done, calm, fine]

deriving instance DecidableEq for Exit

/-- A start in a directory that is not there. -/
def astray : Start where
  arguments := ["/nowhere"]

theorem astray_exit : ∃ a, Arguments.ofTexts astray.arguments = .ok a ∧
    (run astray Tools.none (fun _ => 0.0) {}).exit = .failed := by
  have read : (Arguments.ofTexts astray.arguments).toOption.map
      (fun a => (a.project, a.options.config)) = some ("/nowhere", none) := by decide +kernel
  cases accepted : Arguments.ofTexts astray.arguments with
  | error refusal =>
    rw [accepted] at read
    cases read
  | ok a =>
    rw [accepted] at read
    have there : (a.project, a.options.config) = ("/nowhere", none) := Option.some.inj read
    obtain ⟨project, config⟩ := Prod.mk.inj there
    refine ⟨a, rfl, (run_exit accepted Tools.none (fun _ => 0.0) {}).2.1.mpr ⟨?_, .homeless ?_⟩⟩
    · rintro (⟨path, -, -, -, named, -⟩ | ⟨file, -, -, v, -, name, -, given, -⟩)
      · rw [config] at named
        cases named
      · cases given
    · rw [project]
      exact .inr (by decide +kernel)

/-- A disk with one configuration file. -/
def workshop (config : String) : Disk where
  nodes := [("/proj", .directory), ("/proj/tsmend.yaml", .file config.toUTF8)]

/-- A start with that file, and with a variable that belongs into the section of limits. -/
def configured : Start where
  arguments := ["/proj", "--config", "/proj/tsmend.yaml"]
  environment := [("TSMEND_CONSTRAINED", "true")]

/-- A section without entries cannot be written into, and a text with two colons in a line is no
document. In both cases the arguments are accepted, and nobody reports the error. -/
theorem configured_crashes : (Arguments.ofTexts configured.arguments).isOk = true ∧
    (run configured Tools.none (fun _ => 0.0) (workshop "limits:\n")).exit =
      .crashed .notASection ∧
    (run configured Tools.none (fun _ => 0.0) (workshop "limits: a: b\n")).exit =
      .crashed (.notYaml .scanner) := by
  decide +kernel

end ModuleRepair.CommandLine
