import ModuleRepair.Proofs.Settings.Layers

/-!
# Which layer wins

Everything that the environment and the caller say is put into its place, one after the other. So a
setting is what the caller says about it, or else what the environment says, or else what the file
says, and everything else in the file is as it was (`layers_win`). That is so as long as each section
stands in one place of the file only: what is written into a mapping shows wherever it stands
(`sharedFile_changes`).
-/
namespace ModuleRepair

open ModuleRepair.Text ModuleRepair.Decimal

/-! ## Where a mapping stands -/

namespace Value

mutual

/-- Whether the mapping of an identity is a value, or stands somewhere in it. -/
def holds (identity : Nat) : Value → Bool
  | list items => holdsItems identity items
  | mapping entries own => own == some identity || holdsEntries identity entries
  | _ => false

def holdsItems (identity : Nat) : List Value → Bool
  | [] => false
  | v :: rest => holds identity v || holdsItems identity rest

def holdsEntries (identity : Nat) : List (Key × Value) → Bool
  | [] => false
  | entry :: rest => holdsEntry identity entry || holdsEntries identity rest

def holdsEntry (identity : Nat) : Key × Value → Bool
  | (_, v) => holds identity v

end

mutual

/-- Writing into a mapping changes nothing where it does not stand. -/
theorem write_of_not_holds {identity : Nat} {key : Key} {w : Value} :
    ∀ v : Value, v.holds identity = false → write identity key w v = v
  | list items, h => by rw [write, writeItems_of_not_holds items h]
  | mapping entries own, h => by
    rw [holds, Bool.or_eq_false_iff, beq_eq_false_iff_ne] at h
    rw [write, if_neg h.1, writeEntries_of_not_holds entries h.2]
  | null, _ | bool _, _ | number _, _ | text _, _ | moment, _ => rfl

theorem writeItems_of_not_holds {identity : Nat} {key : Key} {w : Value} :
    ∀ items : List Value, holdsItems identity items = false →
      writeItems identity key w items = items
  | [], _ => rfl
  | v :: rest, h => by
    rw [holdsItems, Bool.or_eq_false_iff] at h
    rw [writeItems, write_of_not_holds v h.1, writeItems_of_not_holds rest h.2]

theorem writeEntries_of_not_holds {identity : Nat} {key : Key} {w : Value} :
    ∀ entries : List (Key × Value), holdsEntries identity entries = false →
      writeEntries identity key w entries = entries
  | [], _ => rfl
  | (k, v) :: rest, h => by
    rw [holdsEntries, holdsEntry, Bool.or_eq_false_iff] at h
    rw [writeEntries, writeEntry, write_of_not_holds v h.1, writeEntries_of_not_holds rest h.2]

end

variable {identity other : Nat} {key : Key} {v w : Value} {entries : Entries}

theorem holdsEntries_eq_false :
    holdsEntries other entries = false ↔ ∀ entry ∈ entries, entry.2.holds other = false := by
  induction entries with
  | nil => simp [holdsEntries]
  | cons entry rest ih =>
    rw [holdsEntries, holdsEntry, Bool.or_eq_false_iff, ih, List.forall_mem_cons]

theorem lookup_put (entries : Entries) (key : Key) (v : Value) (other : Key) :
    (put entries key v).lookup other = if other = key then some v else entries.lookup other := by
  by_cases same : other = key
  · rw [if_pos same, same, lookup_put_self]
  · rw [if_neg same, lookup_put_of_ne same]

/-- What is put into entries is the value itself, or was there. -/
theorem mem_put {entry : Key × Value} (h : entry ∈ put entries key v) :
    entry = (key, v) ∨ entry ∈ entries := by
  unfold put at h
  split at h
  · obtain ⟨old, there, rfl⟩ := List.mem_map.mp h
    by_cases same : old.1 = key
    · exact .inl (if_pos same)
    · exact .inr (by rwa [if_neg same])
  · rw [List.mem_append, List.mem_singleton] at h
    exact h.symm

theorem holdsEntries_put (inside : holdsEntries other entries = false)
    (value : v.holds other = false) : holdsEntries other (put entries key v) = false := by
  rw [holdsEntries_eq_false] at inside ⊢
  intro entry there
  rcases mem_put there with rfl | there
  · exact value
  · exact inside entry there

mutual

/-- A mapping that stands neither in a value nor in what is written into it does not get there. -/
theorem holds_write (written : w.holds other = false) :
    ∀ v : Value, v.holds other = false → (write identity key w v).holds other = false
  | list items, h => by
    rw [write, holds, holdsItems_write written items h]
  | mapping entries own, h => by
    rw [holds, Bool.or_eq_false_iff] at h
    rw [write]
    by_cases same : own = some identity
    · rw [if_pos same, holds, h.1, holdsEntries_put h.2 written]
      rfl
    · rw [if_neg same, holds, h.1, holdsEntries_write written entries h.2]
      rfl
  | null, _ | bool _, _ | number _, _ | text _, _ | moment, _ => rfl

theorem holdsItems_write (written : w.holds other = false) :
    ∀ items : List Value, holdsItems other items = false →
      holdsItems other (writeItems identity key w items) = false
  | [], _ => rfl
  | v :: rest, h => by
    rw [holdsItems, Bool.or_eq_false_iff] at h
    rw [writeItems, holdsItems, holds_write written v h.1, holdsItems_write written rest h.2]
    rfl

theorem holdsEntries_write (written : w.holds other = false) :
    ∀ entries : List (Key × Value), holdsEntries other entries = false →
      holdsEntries other (writeEntries identity key w entries) = false
  | [], _ => rfl
  | (k, v) :: rest, h => by
    rw [holdsEntries, holdsEntry, Bool.or_eq_false_iff] at h
    rw [writeEntries, writeEntry, holdsEntries, holdsEntry, holds_write written v h.1,
      holdsEntries_write written rest h.2]
    rfl

end

theorem mem_writeEntries {entry : Key × Value} (h : entry ∈ writeEntries identity key w entries) :
    ∃ old ∈ entries, entry = (old.1, write identity key w old.2) := by
  induction entries with
  | nil => cases h
  | cons old rest ih =>
    obtain ⟨k, v⟩ := old
    rw [writeEntries, writeEntry, List.mem_cons] at h
    rcases h with rfl | h
    · exact ⟨(k, v), List.mem_cons_self, rfl⟩
    · obtain ⟨old, there, same⟩ := ih h
      exact ⟨old, List.mem_cons_of_mem _ there, same⟩

/-- A value in which no mapping of a document stands, so that nothing in it is shared. -/
def Unshared (v : Value) : Prop :=
  ∀ identity, v.holds identity = false

end Value

/-! ## Settings -/

/-- What entries say about a setting: under its key, in its section if it has one. -/
def setting? (entries : Entries) (into : Option String) (key : Key) : Option Value :=
  match into with
  | none => entries.lookup key
  | some name =>
    match Value.get? entries name with
    | some (.mapping inner _) => inner.lookup key
    | _ => none

/-- Where a setting can be: in a section, or under a key that is not that of a section. -/
def IsPlace (into : Option String) (key : Key) : Prop :=
  match into with
  | none => ∀ name ∈ sectionNames, key ≠ .text name
  | some name => name ∈ sectionNames

instance (into : Option String) (key : Key) : Decidable (IsPlace into key) :=
  match into with
  | none => inferInstanceAs (Decidable (∀ name ∈ sectionNames, key ≠ .text name))
  | some name => inferInstanceAs (Decidable (name ∈ sectionNames))

/-- Whether a section stands nowhere else among the entries. -/
def StandsAlone (entries : Entries) (name : String) : Prop :=
  ∀ inner identity, Value.get? entries name = some (.mapping inner (some identity)) →
    ∀ entry ∈ entries, entry.1 ≠ .text name → entry.2.holds identity = false

/-- Whether the sections of entries, where there are some, are mappings that stand nowhere else. -/
structure HasSections (entries : Entries) : Prop where
  mappings : ∀ name ∈ sectionNames, blocks entries name = false
  alone : ∀ name ∈ sectionNames, StandsAlone entries name

/-! ## One step -/

section

variable {entries : Entries} {name : String} {key : Key} {v : Value}

theorem mem_of_lookup {w : Value} (h : entries.lookup key = some w) : (key, w) ∈ entries := by
  obtain ⟨front, back, rfl, -⟩ := List.lookup_eq_some_iff.mp h
  simp

/-- Putting something among entries leaves the other sections alone, when none of them stands in
it. -/
theorem HasSections.put (h : HasSections entries)
    (mapping : ∀ name ∈ sectionNames, key = .text name → ∃ inner, v = .mapping inner)
    (apart : ∀ name ∈ sectionNames, key ≠ .text name → ∀ inner identity,
      Value.get? entries name = some (.mapping inner (some identity)) → v.holds identity = false) :
    HasSections (Value.put entries key v) where
  mappings name listed := by
    by_cases same : key = .text name
    · obtain ⟨inner, rfl⟩ := mapping name listed same
      rw [blocks, Value.get?, same, Value.lookup_put_self]
    · rw [blocks, Value.get?, Value.lookup_put_of_ne (Ne.symm same)]
      exact h.mappings name listed
  alone name listed := by
    intro inner identity there entry member other
    by_cases same : key = .text name
    · obtain ⟨inner', rfl⟩ := mapping name listed same
      rw [Value.get?, same, Value.lookup_put_self] at there
      cases there
    · rw [Value.get?, Value.lookup_put_of_ne (Ne.symm same)] at there
      rcases Value.mem_put member with rfl | member
      · exact apart name listed same inner identity there
      · exact h.alone name listed inner identity there entry member other

/-- Writing into a section that stands alone changes nothing else. -/
theorem lookup_writeEntries_of_alone {inner : Entries} {identity : Nat}
    (alone : StandsAlone entries name)
    (there : Value.get? entries name = some (.mapping inner (some identity))) {other : Key}
    (ne : other ≠ .text name) (k : Key) (v : Value) :
    (Value.writeEntries identity k v entries).lookup other = entries.lookup other := by
  rw [Value.lookup_writeEntries]
  cases here : entries.lookup other with
  | none => rfl
  | some w =>
    have outside := alone inner identity there _ (mem_of_lookup here) ne
    rw [Option.map_some, Value.write_of_not_holds w outside]

theorem HasSections.writeEntries (h : HasSections entries) (unshared : v.Unshared)
    (listed : name ∈ sectionNames) {inner : Entries} {identity : Nat}
    (there : Value.get? entries name = some (.mapping inner (some identity))) :
    HasSections (Value.writeEntries identity key v entries) where
  mappings other listed := by
    rw [blocks_writeEntries]
    exact h.mappings other listed
  alone other listed' := by
    intro inner' identity' there' entry written ne
    obtain ⟨old, member, rfl⟩ := Value.mem_writeEntries written
    by_cases same : other = name
    · subst same
      rw [Value.get?, Value.lookup_writeEntries, ← Value.get?, there, Option.map_some, Value.write,
        if_pos rfl] at there'
      cases there'
      have outside := h.alone other listed inner identity there old member ne
      rw [Value.write_of_not_holds old.2 outside]
      exact outside
    · have ne' : Key.text other ≠ .text name := fun equal => same (Key.text.inj equal)
      rw [Value.get?, lookup_writeEntries_of_alone (h.alone name listed) there ne'] at there'
      exact Value.holds_write (unshared identity') old.2
        (h.alone other listed' inner' identity' there' old member ne)

/-- A value goes into a section, and everything outside the section is as it was. -/
theorem putInto_spec (h : HasSections entries) (unshared : v.Unshared)
    (listed : name ∈ sectionNames) (k : String) :
    ∃ entries', putInto entries name k v = .ok entries' ∧ HasSections entries' ∧
      (∀ other, other ≠ .text name → entries'.lookup other = entries.lookup other) ∧
      ∀ other, setting? entries' (some name) other =
        if other = .text k then some v else setting? entries (some name) other := by
  have free := h.mappings name listed
  cases there : Value.get? entries name with
  | none =>
    refine ⟨_, by rw [putInto, there], h.put ?_ ?_, fun _ ne => Value.lookup_put_of_ne ne .., ?_⟩
    · exact fun _ _ _ => ⟨_, rfl⟩
    · intro _ _ _ _ identity _
      rw [Value.holds, Value.holdsEntries, Value.holdsEntry, unshared identity]
      rfl
    · intro other
      rw [setting?, setting?, there, Value.get?, Value.lookup_put_self]
      exact Value.lookup_put [] (.text k) v other
  | some w =>
    cases w with
    | mapping inner identity =>
      cases identity with
      | none =>
        refine ⟨_, by rw [putInto, there], h.put ?_ ?_,
          fun _ ne => Value.lookup_put_of_ne ne .., ?_⟩
        · exact fun _ _ _ => ⟨_, rfl⟩
        · intro other listed' ne inner' identity' there'
          have outside := h.alone other listed' inner' identity' there' _ (mem_of_lookup there) ne
          rw [Value.holds] at outside ⊢
          rw [Bool.or_eq_false_iff] at outside ⊢
          exact ⟨outside.1, Value.holdsEntries_put outside.2 (unshared identity')⟩
        · intro other
          rw [setting?, setting?, there, Value.get?, Value.lookup_put_self]
          exact Value.lookup_put inner (.text k) v other
      | some identity =>
        refine ⟨_, by rw [putInto, there], h.writeEntries unshared listed there, fun _ ne =>
          lookup_writeEntries_of_alone (h.alone name listed) there ne .., ?_⟩
        intro other
        rw [setting?, setting?, Value.get?, Value.lookup_writeEntries, ← Value.get?, there,
          Option.map_some, Value.write, if_pos rfl]
        exact Value.lookup_put inner (.text k) v other
    | _ => simp [blocks, there] at free

/-- A value goes into a place, and every other setting is as it was. -/
theorem place_spec (h : HasSections entries) (unshared : v.Unshared) {into : Option String}
    {k : String} (here : IsPlace into (.text k)) :
    ∃ entries', place entries into k v = .ok entries' ∧ HasSections entries' ∧
      ∀ into' other, IsPlace into' other → setting? entries' into' other =
        if into' = into ∧ other = .text k then some v else setting? entries into' other := by
  cases into with
  | none =>
    refine ⟨_, rfl, h.put (fun name listed same => absurd same (here name listed))
      (fun _ _ _ _ identity _ => unshared identity), ?_⟩
    intro into' other there
    cases into' with
    | none => simp only [setting?, Value.lookup_put, true_and]
    | some name =>
      have ne : Key.text name ≠ .text k := Ne.symm (here name there)
      rw [if_neg (by simp), setting?, setting?, Value.get?, Value.lookup_put_of_ne ne, Value.get?]
  | some name =>
    obtain ⟨entries', placed, sections, outside, inside⟩ := putInto_spec h unshared here k
    refine ⟨entries', placed, sections, ?_⟩
    intro into' other there
    cases into' with
    | none => rw [if_neg (by simp), setting?, setting?, outside other (there name here)]
    | some name' =>
      by_cases same : name' = name
      · subst same
        simp only [inside, true_and]
      · have ne : Key.text name' ≠ .text name := fun equal => same (Key.text.inj equal)
        rw [if_neg (by simp [same]), setting?, setting?, Value.get?, outside _ ne, Value.get?]

end

/-! ## One layer -/

/-- A value for a place. -/
structure Choice where
  into : Option String
  key : String
  value : Value

/-- What choices say about a setting. The last one counts. -/
def chosen (choices : List Choice) (into : Option String) (key : Key) : Option Value :=
  match choices with
  | [] => none
  | c :: rest =>
    (chosen rest into key).or (if into = c.into ∧ key = .text c.key then some c.value else none)

/-- A layer of choices wins over what was there. -/
theorem foldlM_place {choices : List Choice} {entries : Entries} (h : HasSections entries)
    (fit : ∀ c ∈ choices, IsPlace c.into (.text c.key) ∧ c.value.Unshared) :
    ∃ entries', choices.foldlM (fun entries c => place entries c.into c.key c.value) entries =
        .ok entries' ∧ HasSections entries' ∧ ∀ into key, IsPlace into key →
      setting? entries' into key = (chosen choices into key).or (setting? entries into key) := by
  induction choices generalizing entries with
  | nil => exact ⟨entries, rfl, h, fun _ _ _ => rfl⟩
  | cons c rest ih =>
    obtain ⟨here, later⟩ := List.forall_mem_cons.mp fit
    obtain ⟨middle, placed, sections, first⟩ := place_spec h here.2 here.1
    obtain ⟨entries', done, sections', others⟩ := ih sections later
    refine ⟨entries', ?_, sections', fun into key there => ?_⟩
    · rw [List.foldlM_cons, placed]
      exact done
    · rw [others into key there, first into key there, chosen, Option.or_assoc]
      by_cases same : into = c.into ∧ key = .text c.key
      · rw [if_pos same, if_pos same, Option.some_or]
      · rw [if_neg same, if_neg same, Option.none_or]

/-! ## The environment -/

section

variable (environment : List (String × String))

/-- What the environment says about a setting. -/
def environmentSays : Option String → Key → Option Value
  | none, .text "source_root" => (environment.lookup "TSMEND_SOURCE_ROOT").map .text
  | none, .text "alias_prefix" => (environment.lookup "TSMEND_ALIAS_PREFIX").map .text
  | none, .text "timeout_seconds" => (environment.lookup "TSMEND_TIMEOUT_SECONDS").bind fun s =>
    (float? s).map fun x => .number (.real x)
  | none, .text "index_mode" => (environment.lookup "TSMEND_INDEX_MODE").map .text
  | some "limits", .text "constrained" =>
    (environment.lookup "TSMEND_CONSTRAINED").map fun s => .bool (saysYes s)
  | some "tsc", .text "command" => (environment.lookup "TSMEND_TSC_COMMAND").map fun s =>
    .list ((words s.toList).map fun w => .text (String.ofList w))
  | some "tsc", .text "enabled" =>
    (environment.lookup "TSMEND_TSC_ENABLED").map fun s => .bool (saysYes s)
  | _, _ => none

/-- What the environment says about the setting of a variable. -/
def Variable.value? (v : Variable) : Option Value :=
  (environment.lookup v.name).bind fun s => (v.read s).toOption

/-- The choices of the environment. -/
def environmentChoices (vs : List Variable) : List Choice :=
  vs.filterMap fun v => (v.value? environment).map fun x => ⟨v.into, v.key, x⟩

theorem chosen_environmentChoices (v : Variable) (rest : List Variable) (into : Option String)
    (key : Key) : chosen (environmentChoices environment (v :: rest)) into key =
      (chosen (environmentChoices environment rest) into key).or
        (if into = v.into ∧ key = .text v.key then v.value? environment else none) := by
  rw [environmentChoices, List.filterMap_cons]
  cases v.value? environment with
  | none => simp [environmentChoices]
  | some x => rfl

theorem bind_toOption {ε α β : Type} (o : Option α) (f : α → β) :
    (o.bind fun a => (Except.ok (ε := ε) (f a)).toOption) = o.map f := by
  cases o <;> rfl

/-- The choices of the environment are those that its variables stand for. -/
theorem chosen_environment (into : Option String) (key : Key) :
    chosen (environmentChoices environment environmentVariables) into key =
      environmentSays environment into key := by
  have nothing : chosen (environmentChoices environment []) into key = none := rfl
  unfold environmentSays
  split
  case h_3 =>
    simp only [environmentVariables, textVariable, chosen_environmentChoices, Variable.value?,
      nothing, and_self, if_true, reduceCtorEq, if_false, Key.text.injEq, String.reduceEq,
      and_false, Option.none_or, Option.or_none]
    refine Option.bind_congr fun s _ => ?_
    cases float? s <;> rfl
  case h_8 root mark timeout mode constrained command enabled =>
    simp only [environmentVariables, textVariable, chosen_environmentChoices, nothing,
      if_neg (not_and.mpr root), if_neg (not_and.mpr mark), if_neg (not_and.mpr timeout),
      if_neg (not_and.mpr mode), if_neg (not_and.mpr constrained), if_neg (not_and.mpr command),
      if_neg (not_and.mpr enabled), Option.or_none]
  all_goals
    simp [environmentVariables, textVariable, chosen_environmentChoices, Variable.value?, nothing,
      bind_toOption]

/-- Applying variables that can be read is making their choices. -/
theorem foldlM_environmentChoices {vs : List Variable}
    (readable : ∀ v ∈ vs, ∀ s, environment.lookup v.name = some s → ∃ x, v.read s = .ok x)
    (entries : Entries) : vs.foldlM (applyVariable environment) entries =
      (environmentChoices environment vs).foldlM (fun entries c =>
        place entries c.into c.key c.value) entries := by
  induction vs generalizing entries with
  | nil => rfl
  | cons v rest ih =>
    have later := ih fun u there => readable u (List.mem_cons_of_mem v there)
    rw [List.foldlM_cons, environmentChoices, List.filterMap_cons, applyVariable, Variable.value?]
    cases given : environment.lookup v.name with
    | none => exact later entries
    | some s =>
      obtain ⟨x, read⟩ := readable v List.mem_cons_self s given
      simp only [read, Option.bind_some, Except.toOption, Option.map_some, List.foldlM_cons]
      exact bind_congr fun entries => later entries

end

theorem unshared_texts {α : Type} (list : List α) (f : α → String) :
    (Value.list (list.map fun a => .text (f a))).Unshared := by
  intro identity
  rw [Value.holds]
  induction list with
  | nil => rfl
  | cons a rest ih =>
    rw [List.map_cons, Value.holdsItems, ih]
    rfl

/-- What a variable of the environment says is shared with nothing, and has its own place. -/
theorem environmentVariables_fit : ∀ v ∈ environmentVariables,
    IsPlace v.into (.text v.key) ∧ ∀ s x, v.read s = .ok x → x.Unshared := by
  have text (name key : String) (h : ∀ name ∈ sectionNames, Key.text key ≠ .text name) :
      IsPlace (textVariable name key).into (.text (textVariable name key).key) ∧
        ∀ s x, (textVariable name key).read s = .ok x → x.Unshared := by
    refine ⟨h, ?_⟩
    rintro s x ⟨⟩ identity
    rfl
  have word : ∀ (s : String) (x : Value),
      Except.ok (ε := SettingsError) (.bool (saysYes s)) = .ok x → x.Unshared := by
    rintro s x ⟨⟩ identity
    rfl
  intro v listed
  simp only [environmentVariables, List.mem_cons, List.not_mem_nil, or_false] at listed
  rcases listed with rfl | rfl | rfl | rfl | rfl | rfl | rfl
  · exact text _ _ (by simp [sectionNames])
  · exact text _ _ (by simp [sectionNames])
  · refine ⟨by simp [IsPlace, sectionNames], fun s x read identity => ?_⟩
    dsimp only at read
    split at read
    · cases read
      rfl
    · cases read
  · exact text _ _ (by simp [sectionNames])
  · exact ⟨by simp [IsPlace, sectionNames], word⟩
  · refine ⟨by simp [IsPlace, sectionNames], ?_⟩
    rintro s x ⟨⟩
    exact unshared_texts _ _
  · exact ⟨by simp [IsPlace, sectionNames], word⟩

/-- Only one variable can be unreadable. -/
theorem environmentVariables_read : ∀ v ∈ environmentVariables, ∀ s,
    (v.name = "TSMEND_TIMEOUT_SECONDS" → (float? s).isSome = true) → ∃ x, v.read s = .ok x := by
  intro v listed s number
  simp only [environmentVariables, List.mem_cons, List.not_mem_nil, or_false] at listed
  rcases listed with rfl | rfl | rfl | rfl | rfl | rfl | rfl
  case inr.inr.inl =>
    obtain ⟨x, here⟩ := Option.isSome_iff_exists.mp (number rfl)
    exact ⟨.number (.real x), by simp only [here]⟩
  all_goals exact ⟨_, rfl⟩

/-- Adding a section changes no setting. -/
theorem withSection_spec {entries : Entries} {name : String} (h : HasSections entries)
    (listed : name ∈ sectionNames) : HasSections (withSection entries name) ∧
      ∀ into key, IsPlace into key →
        setting? (withSection entries name) into key = setting? entries into key := by
  unfold withSection
  split
  · next absent =>
    refine ⟨h.put (fun _ _ _ => ⟨[], rfl⟩) (fun _ _ _ _ _ _ => rfl), fun into key there => ?_⟩
    cases into with
    | none => rw [setting?, setting?, Value.lookup_put_of_ne (there name listed)]
    | some other =>
      by_cases same : other = name
      · subst same
        rw [setting?, setting?, Value.get?, Value.lookup_put_self, absent]
        rfl
      · have ne : Key.text other ≠ .text name := fun equal => same (Key.text.inj equal)
        rw [setting?, setting?, Value.get?, Value.lookup_put_of_ne ne, Value.get?]
  · exact ⟨h, fun _ _ _ => rfl⟩

/-- The environment wins over the file, if the deadline that it names is a number. -/
theorem applyEnvironment_spec {environment : List (String × String)} {entries : Entries}
    (h : HasSections entries) (timeout : ∀ s,
      environment.lookup "TSMEND_TIMEOUT_SECONDS" = some s → (float? s).isSome = true) :
    ∃ entries', applyEnvironment environment entries = .ok entries' ∧ HasSections entries' ∧
      ∀ into key, IsPlace into key → setting? entries' into key =
        (environmentSays environment into key).or (setting? entries into key) := by
  have readable : ∀ v ∈ environmentVariables, ∀ s, environment.lookup v.name = some s →
      ∃ x, v.read s = .ok x := by
    intro v listed s given
    exact environmentVariables_read v listed s fun same => timeout s (same ▸ given)
  have fit : ∀ c ∈ environmentChoices environment environmentVariables,
      IsPlace c.into (.text c.key) ∧ c.value.Unshared := by
    intro c there
    obtain ⟨v, listed, said⟩ := List.mem_filterMap.mp there
    obtain ⟨x, stated, rfl⟩ := Option.map_eq_some_iff.mp said
    obtain ⟨s, -, read⟩ := Option.bind_eq_some_iff.mp stated
    obtain ⟨here, unshared⟩ := environmentVariables_fit v listed
    cases answer : v.read s with
    | error e =>
      rw [answer] at read
      cases read
    | ok y =>
      rw [answer] at read
      cases read
      exact ⟨here, unshared s x answer⟩
  obtain ⟨middle, applied, sections, wins⟩ := foldlM_place h fit
  have first : "limits" ∈ sectionNames := List.mem_cons_self
  have second : "tsc" ∈ sectionNames := List.mem_cons_of_mem _ List.mem_cons_self
  obtain ⟨sections', limits⟩ := withSection_spec sections first
  obtain ⟨sections'', tsc⟩ := withSection_spec sections' second
  refine ⟨_, ?_, sections'', fun into key there => ?_⟩
  · rw [applyEnvironment, foldlM_environmentChoices environment readable, applied]
    rfl
  · rw [tsc into key there, limits into key there, wins into key there, chosen_environment]

/-! ## The caller -/

/-- A value that says something. -/
def Value.said? : Value → Option Value
  | null => none
  | v => some v

/-- What the caller says about a setting: a null says nothing, and a limit is one of the section of
limits. -/
def overrideSays (overrides : List (String × Value)) (into : Option String) : Key → Option Value
  | .text key =>
    if into = (if limitKeys.contains key then some "limits" else none) then
      (overrides.lookup key).bind Value.said?
    else none
  | _ => none

/-- The choices of the caller. -/
def overrideChoices (overrides : List (String × Value)) : List Choice :=
  overrides.filterMap fun (key, v) =>
    v.said?.map fun v => ⟨if limitKeys.contains key then some "limits" else none, key, v⟩

theorem applyOverrides_eq (overrides : List (String × Value)) (entries : Entries) :
    applyOverrides overrides entries = (overrideChoices overrides).foldlM (fun entries c =>
      place entries c.into c.key c.value) entries := by
  unfold applyOverrides
  induction overrides generalizing entries with
  | nil => rfl
  | cons choice rest ih =>
    obtain ⟨key, v⟩ := choice
    rw [List.foldlM_cons, overrideChoices, List.filterMap_cons]
    cases v with
    | null => exact ih entries
    | _ => exact bind_congr fun entries => ih entries

/-- Of choices with different keys each one counts. -/
theorem chosen_overrides {overrides : List (String × Value)}
    (distinct : (overrides.map (·.1)).Nodup) (into : Option String) (key : Key) :
    chosen (overrideChoices overrides) into key = overrideSays overrides into key := by
  induction overrides with
  | nil =>
    cases key with
    | text k => exact (ite_self none).symm
    | _ => rfl
  | cons choice rest ih =>
    obtain ⟨k, v⟩ := choice
    obtain ⟨absent, distinct⟩ := List.nodup_cons.mp distinct
    have first : chosen (overrideChoices ((k, v) :: rest)) into key =
        (overrideSays rest into key).or
          (if into = (if limitKeys.contains k then some "limits" else none) ∧ key = .text k then
            v.said? else none) := by
      rw [← ih distinct, overrideChoices, List.filterMap_cons]
      cases v <;> simp [Value.said?, chosen, overrideChoices]
    rw [first]
    cases key with
    | text k' =>
      by_cases same : k' = k
      · subst same
        have unsaid : rest.lookup k' = none := List.lookup_eq_none_iff.mpr fun entry there =>
          bne_iff_ne.mpr fun same => absent (List.mem_map.mpr ⟨entry, there, same.symm⟩)
        simp [overrideSays, unsaid]
      · have unlike : (k' == k) = false := beq_eq_false_iff_ne.mpr same
        simp [overrideSays, List.lookup_cons, unlike, same]
    | _ => simp [overrideSays]

/-- The caller wins over the environment, which wins over the file, for every setting in its place,
and what no layer names is as it was. What the caller chooses is no part of the document that the
file holds. -/
theorem layers_win {file : Entries} {environment : List (String × String)}
    {overrides : List (String × Value)} (sections : HasSections file)
    (timeout : ∀ s, environment.lookup "TSMEND_TIMEOUT_SECONDS" = some s → (float? s).isSome = true)
    (distinct : (overrides.map (·.1)).Nodup) (keys : ∀ choice ∈ overrides, choice.1 ∉ sectionNames)
    (unshared : ∀ choice ∈ overrides, choice.2.Unshared) :
    ∃ raw, layers file environment overrides = .ok raw ∧
      ∀ into key, IsPlace into key → setting? raw into key =
        (overrideSays overrides into key).or
          ((environmentSays environment into key).or (setting? file into key)) := by
  obtain ⟨middle, applied, sections', first⟩ := applyEnvironment_spec sections timeout
  have fit : ∀ c ∈ overrideChoices overrides, IsPlace c.into (.text c.key) ∧ c.value.Unshared := by
    intro c there
    obtain ⟨⟨key, v⟩, listed, made⟩ := List.mem_filterMap.mp there
    obtain rfl : c = ⟨if limitKeys.contains key then some "limits" else none, key, v⟩ := by
      cases v <;> cases made <;> rfl
    refine ⟨?_, unshared _ listed⟩
    by_cases limit : limitKeys.contains key = true
    · rw [if_pos limit]
      exact List.mem_cons_self
    · rw [if_neg limit]
      intro name listed' same
      obtain rfl : key = name := Key.text.inj same
      exact keys _ listed listed'
  obtain ⟨raw, done, -, second⟩ := foldlM_place sections' fit
  refine ⟨raw, ?_, fun into key there => ?_⟩
  · rw [layers, applied]
    exact (applyOverrides_eq overrides middle).trans done
  · rw [second into key there, first into key there, chosen_overrides distinct]

/-- A file with a section, and with a mapping that is none. -/
def shopFile : Entries := [
  (.text "source_root", .text "app"),
  (.text "special_imports", .mapping [] (some 0)),
  (.text "limits", .mapping [(.text "max_files_per_batch", .number (.whole 2))] (some 1))]

def shopEnvironment : List (String × String) := [
  ("TSMEND_SOURCE_ROOT", "lib"), ("TSMEND_TIMEOUT_SECONDS", "5"), ("TSMEND_CONSTRAINED", "false")]

def shopOverrides : List (String × Value) := [
  ("source_root", .text "web"), ("alias_prefix", .null),
  ("max_files_per_batch", .number (.whole 1))]

theorem shopFile_sections : HasSections shopFile where
  mappings := by decide
  alone := by
    intro name listed inner identity there entry member other
    simp only [sectionNames, List.mem_cons, List.not_mem_nil, or_false] at listed
    rcases listed with rfl | rfl
    · cases there
      simp only [shopFile, List.mem_cons, List.not_mem_nil, or_false] at member
      rcases member with rfl | rfl | rfl
      · rfl
      · rfl
      · exact absurd rfl other
    · cases there

theorem shopFile_layers : ∃ raw, layers shopFile shopEnvironment shopOverrides = .ok raw ∧
    setting? raw none (.text "source_root") = some (.text "web") ∧
    setting? raw none (.text "alias_prefix") = none ∧
    setting? raw none (.text "special_imports") = some (.mapping [] (some 0)) ∧
    setting? raw (some "limits") (.text "constrained") = some (.bool false) ∧
    setting? raw (some "limits") (.text "max_files_per_batch") = some (.number (.whole 1)) ∧
    setting? raw (some "tsc") (.text "command") = none := by
  have timeout : ∀ s, shopEnvironment.lookup "TSMEND_TIMEOUT_SECONDS" = some s →
      (float? s).isSome = true := by
    decide +kernel
  have unshared : ∀ choice ∈ shopOverrides, choice.2.Unshared := by
    intro choice listed identity
    simp only [shopOverrides, List.mem_cons, List.not_mem_nil, or_false] at listed
    rcases listed with rfl | rfl | rfl <;> rfl
  obtain ⟨raw, done, wins⟩ :=
    layers_win shopFile_sections timeout (by decide) (by decide) unshared
  exact ⟨raw, done, wins none (.text "source_root") (by decide),
    wins none (.text "alias_prefix") (by decide), wins none (.text "special_imports") (by decide),
    wins (some "limits") (.text "constrained") (by decide),
    wins (some "limits") (.text "max_files_per_batch") (by decide),
    wins (some "tsc") (.text "command") (by decide)⟩

/-- A file in which one mapping is both the section of limits and something else. -/
def sharedFile : Entries := [
  (.text "special_imports", .mapping [] (some 0)), (.text "limits", .mapping [] (some 0))]

/-- The keys of a mapping. -/
def Value.keys : Value → List Key
  | mapping entries _ => entries.map (·.1)
  | _ => []

/-- The entries of a document, each with the identity of its mapping. -/
def identities (document : String) : List (Key × Option Nat) :=
  match Yaml.value document with
  | .ok (.mapping entries _) => entries.map fun
    | (key, .mapping _ identity) => (key, identity)
    | (key, _) => (key, none)
  | _ => []

/-- What the environment says about a limit is written into the other mapping, too. -/
theorem sharedFile_changes :
    identities "special_imports: &none \x7b\x7d\nlimits: *none\n" =
      [(.text "special_imports", some 0), (.text "limits", some 0)] ∧
    (∀ name ∈ sectionNames, blocks sharedFile name = false) ∧
    environmentSays [("TSMEND_CONSTRAINED", "false")] none (.text "special_imports") = none ∧
    (setting? sharedFile none (.text "special_imports")).map Value.keys = some [] ∧
    ∃ raw, layers sharedFile [("TSMEND_CONSTRAINED", "false")] [] = .ok raw ∧
      (setting? raw none (.text "special_imports")).map Value.keys =
        some [.text "constrained"] := by
  refine ⟨by decide +kernel, by decide, rfl, rfl, _, rfl, ?_⟩
  decide +kernel

end ModuleRepair
