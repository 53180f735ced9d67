import ModuleRepair.Preprocess.Files
import ModuleRepair.Proofs.Disk

/-!
# What preprocessing leaves

Preprocessing rewrites files that exist, and so it leaves every directory in its place.
-/
namespace ModuleRepair.Preprocess

theorem file_keepsDirectories (rules : Rules) (p : Progress) (path : String) :
    p.disk.KeepsDirectories (file rules p path).disk := by
  have same := Disk.KeepsDirectories.refl p.disk
  unfold file
  cases read : p.disk.read path with
  | error e => exact same
  | ok bytes =>
    dsimp only
    split
    · exact same
    · exact same
    · split
      · exact same
      · next written => exact Disk.keepsDirectories_write read written

theorem files_keepsDirectories (rules : Rules) (d : Disk) (paths : List String) :
    d.KeepsDirectories (files rules d paths).disk := by
  suffices ∀ p : Progress, p.disk.KeepsDirectories (paths.foldl (file rules) p).disk from
    this { disk := d }
  induction paths with
  | nil => exact fun p => .refl p.disk
  | cons path rest ih =>
    exact fun p => (file_keepsDirectories rules p path).trans (ih (file rules p path))

end ModuleRepair.Preprocess
