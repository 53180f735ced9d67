import Mathlib.Data.List.Induction
import Mathlib.Logic.Function.Iterate
import ModuleRepair.Proofs.Preprocess.Pool

/-!
# How often a file is preprocessed

Preprocessing goes over a file once for each of the given paths that lead to it (`files_disk`). A
path that is given twice makes a difference where one pass is not enough to settle a file.
-/
namespace ModuleRepair.Preprocess

variable {rules : Rules} {d : Disk} {path : String} {paths : List String} {old : ByteArray}

/-- How many of some paths lead to a place. -/
def visits (d : Disk) (paths : List String) (here : String) : Nat :=
  paths.countP fun path => decide (d.locate path = .ok here)

/-- The bytes that some passes have written to a place, if they have written any. -/
def writtenBy (rules : Rules) (d : Disk) (passes : Nat) (here : String) : Option ByteArray :=
  match d.node? here with
  | some (.file old) =>
    if passes ≠ 0 ∧ isReworked rules old = true then some ((bytesAfter rules)^[passes] old)
    else none
  | _ => none

theorem writtenBy_of_file {here : String} (file : d.node? here = some (.file old)) (passes : Nat) :
    writtenBy rules d passes here = if passes ≠ 0 ∧ isReworked rules old = true then
      some ((bytesAfter rules)^[passes] old) else none := by
  rw [writtenBy, file]

theorem filesOnly_writtenBy (rules : Rules) (d : Disk) (passes : String → Nat) :
    d.FilesOnly fun here => writtenBy rules d (passes here) here := by
  intro here new written
  cases node : d.node? here with
  | none => simp [writtenBy, node] at written
  | some found =>
    cases found with
    | file old => exact ⟨old, rfl⟩
    | directory => simp [writtenBy, node] at written

/-- Behind some passes a file holds what they have made of its bytes. -/
theorem getD_writtenBy {here : String} (file : d.node? here = some (.file old)) (passes : Nat) :
    (writtenBy rules d passes here).getD old = (bytesAfter rules)^[passes] old := by
  rw [writtenBy_of_file file]
  split
  · rfl
  · next idle =>
    by_cases none : passes = 0
    · rw [none]
      rfl
    · have still : isReworked rules old = false := by simpa [none] using idle
      exact (Function.iterate_fixed (bytesAfter_of_not still) passes).symm

theorem read_writtenBy {passes : String → Nat} {here : String} (located : d.locate path = .ok here)
    (file : d.node? here = some (.file old)) :
    (d.overlay fun here => writtenBy rules d (passes here) here).read path =
      .ok ((bytesAfter rules)^[passes here] old) := by
  have read : d.read path = .ok old := Disk.read_eq_ok.mpr ⟨here, located, file⟩
  rw [(filesOnly_writtenBy rules d passes).read_overlay located, read,
    ← getD_writtenBy file (passes here)]
  cases writtenBy rules d (passes here) here <;> rfl

/-- A file that is reworked again holds what one more pass has made of it. -/
theorem update_writtenBy {passes : String → Nat} {here : String}
    (file : d.node? here = some (.file old)) :
    (if isReworked rules ((bytesAfter rules)^[passes here] old) = true then
        Function.update (fun here => writtenBy rules d (passes here) here) here
          (some (bytesAfter rules ((bytesAfter rules)^[passes here] old)))
      else fun here => writtenBy rules d (passes here) here) =
    fun place => writtenBy rules d (passes place + if place = here then 1 else 0) place := by
  funext place
  by_cases same : place = here
  · subst same
    have again := Function.iterate_succ_apply' (bytesAfter rules) (passes place) old
    rw [if_pos rfl, writtenBy_of_file file, again]
    cases starts : isReworked rules old with
    | false =>
      -- What no pass changes at first none changes later.
      have still := Function.iterate_fixed (bytesAfter_of_not starts) (passes place)
      simp [still, starts, writtenBy_of_file file]
    | true =>
      cases goesOn : isReworked rules ((bytesAfter rules)^[passes place] old) with
      | true => simp
      | false =>
        have begun : passes place ≠ 0 := by
          intro none
          rw [none, Function.iterate_zero, id, starts] at goesOn
          cases goesOn
        simp [writtenBy_of_file file, begun, starts, bytesAfter_of_not goesOn]
  · rw [if_neg same, Nat.add_zero]
    split
    · rw [Function.update_of_ne same]
    · rfl

/-- A path that leads to no file. -/
def Nowhere (d : Disk) (path : String) : Prop :=
  ¬ ∃ here old, d.locate path = .ok here ∧ d.node? here = some (.file old)

/-- What led to no file leads to none later. -/
theorem reworked?_of_nowhere {passes : String → Nat} {p : Progress}
    (before : p.disk = d.overlay fun here => writtenBy rules d (passes here) here)
    {path : String} (nowhere : Nowhere d path) : reworked? rules p.disk path = none := by
  have files := filesOnly_writtenBy rules d passes
  refine Option.eq_none_iff_forall_ne_some.mpr fun new changes => nowhere ?_
  obtain ⟨here, now, located, file⟩ := file_of_reworked? changes
  rw [before, files.rewrites.locate_eq] at located
  rw [before] at file
  obtain ⟨old, file⟩ := files.file_of_overlay file
  exact ⟨here, old, located, file⟩

theorem writtenBy_of_nowhere {path : String} (nowhere : Nowhere d path) (count : Nat)
    (here : String) : writtenBy rules d (count + if d.locate path = .ok here then 1 else 0) here =
      writtenBy rules d count here := by
  split
  · next located =>
    unfold writtenBy
    split
    · next old file => exact absurd ⟨here, old, located, file⟩ nowhere
    · rfl
  · rw [Nat.add_zero]

/-- One more path is one more pass over the file that it leads to. -/
theorem file_disk {passes : String → Nat} {p : Progress}
    (before : p.disk = d.overlay fun here => writtenBy rules d (passes here) here)
    (path : String) : (file rules p path).disk = d.overlay fun here =>
      writtenBy rules d (passes here + if d.locate path = .ok here then 1 else 0) here := by
  have files := filesOnly_writtenBy rules d passes
  by_cases leads : ∃ here old, d.locate path = .ok here ∧ d.node? here = some (.file old)
  · obtain ⟨here, old, located, file⟩ := leads
    have places (place : String) : (if d.locate path = .ok place then 1 else 0) =
        if place = here then 1 else 0 := by
      simp [located, eq_comm]
    have read : (d.overlay fun here => writtenBy rules d (passes here) here).read path = _ :=
      read_writtenBy located file
    have changes := reworked?_eq rules p.disk path
    simp only [places, ← update_writtenBy file]
    rw [before, read] at changes
    dsimp only at changes
    split at changes
    · next again =>
      have written := files.write_overlay located file
        (bytesAfter rules ((bytesAfter rules)^[passes here] old))
      rw [← before] at changes written
      rw [file_of_reworked?_some changes written, if_pos again]
    · next settled =>
      rw [← before] at changes
      rw [file_of_reworked?_none changes, if_neg settled]
      exact before
  · have idle := reworked?_of_nowhere before leads
    simp only [writtenBy_of_nowhere leads, file_of_reworked?_none idle, before]

/-- **Preprocessing goes over a file as often as it is given.** -/
theorem files_disk (rules : Rules) (d : Disk) (paths : List String) :
    (files rules d paths).disk =
      d.overlay fun here => writtenBy rules d (visits d paths here) here := by
  induction paths using List.reverseRecOn with
  | nil =>
    have nothing (here : String) : writtenBy rules d (visits d [] here) here = none := by
      unfold writtenBy
      split <;> simp [visits]
    simp only [nothing, Disk.overlay_none]
    rfl
  | append_singleton paths path ih =>
    have last : files rules d (paths ++ [path]) = file rules (files rules d paths) path := by
      simp [files]
    rw [last, file_disk ih path]
    simp [visits, List.countP_append, List.countP_cons]

/-- What can be read behind preprocessing. -/
theorem read_files (rules : Rules) {here : String} (located : d.locate path = .ok here)
    (paths : List String) : (files rules d paths).disk.read path =
      (d.read path).map (bytesAfter rules)^[visits d paths here] := by
  have files := filesOnly_writtenBy rules d (visits d paths)
  rw [files_disk]
  cases read : d.read path with
  | error fault =>
    have nothing : writtenBy rules d (visits d paths here) here = none := by
      refine Option.eq_none_iff_forall_ne_some.mpr fun new written => ?_
      obtain ⟨old, file⟩ := files here new written
      rw [Disk.read_eq_ok.mpr ⟨here, located, file⟩] at read
      cases read
    rw [files.read_overlay located, nothing, read]
    rfl
  | ok old =>
    obtain ⟨here', located', file⟩ := Disk.read_eq_ok.mp read
    obtain rfl := Except.ok.inj (located'.symm.trans located)
    exact read_writtenBy located file

theorem read_files_of_error (rules : Rules) {fault : DiskFault}
    (located : d.locate path = .error fault) (paths : List String) :
    (files rules d paths).disk.read path = d.read path := by
  rw [files_disk]
  exact (filesOnly_writtenBy rules d (visits d paths)).read_overlay_of_error located

theorem visits_eq_zero_iff {here : String} :
    visits d paths here = 0 ↔ ∀ path ∈ paths, d.locate path ≠ .ok here := by
  simp [visits, List.countP_eq_zero]

/-- Where a place is visited more often than by distinct paths, some path to it is given twice. -/
theorem visits_eraseDups (d : Disk) (paths : List String) (here : String) :
    visits d paths.eraseDups here = visits d paths here ∨
      ∃ path ∈ paths, d.locate path = .ok here ∧ 2 ≤ paths.count path := by
  simp only [visits, List.countP_eq_length_filter, ← filter_eraseDups, length_eraseDups_eq_iff]
  refine Classical.or_iff_not_imp_left.mpr fun again => ?_
  simp only [List.nodup_iff_count_le_one, not_forall, Nat.not_le] at again
  obtain ⟨path, twice⟩ := again
  obtain ⟨there, located⟩ := List.mem_filter.mp (List.count_pos_iff.mp (Nat.zero_lt_of_lt twice))
  exact ⟨path, there, by simpa using located,
    Nat.le_trans twice (List.filter_sublist.count_le path)⟩

/-- One pass is as good as several over a file that it has settled. -/
theorem iterate_of_settled
    (settled : bytesAfter rules (bytesAfter rules old) = bytesAfter rules old) {passes : Nat}
    (some : passes ≠ 0) : (bytesAfter rules)^[passes] old = bytesAfter rules old := by
  obtain ⟨more, rfl⟩ := Nat.exists_eq_succ_of_ne_zero some
  exact Function.iterate_fixed settled more

/-- Giving a path twice leaves the same disk as giving it once if one pass settles its file. -/
theorem files_disk_eraseDups (settled : ∀ path ∈ paths, 2 ≤ paths.count path → ∀ bytes,
      d.read path = .ok bytes →
        bytesAfter rules (bytesAfter rules bytes) = bytesAfter rules bytes) :
    (files rules d paths.eraseDups).disk = (files rules d paths).disk := by
  rw [files_disk, files_disk]
  refine congrArg d.overlay (funext fun here => ?_)
  cases node : d.node? here with
  | none => simp [writtenBy, node]
  | some found =>
    cases found with
    | directory => simp [writtenBy, node]
    | file old =>
      have some : visits d paths.eraseDups here = 0 ↔ visits d paths here = 0 := by
        simp only [visits_eq_zero_iff, List.mem_eraseDups]
      simp only [writtenBy_of_file node, ne_eq, some]
      rcases visits_eraseDups d paths here with same | ⟨path, there, located, twice⟩
      · rw [same]
      · have once := settled path there twice old (Disk.read_eq_ok.mpr ⟨here, located, node⟩)
        split
        · next worked =>
          rw [iterate_of_settled once worked.1, iterate_of_settled once (some.not.mpr worked.1)]
        · rfl

end ModuleRepair.Preprocess
