import ModuleRepair.Proofs.Export.Surface
import ModuleRepair.Proofs.Path.Joined
import ModuleRepair.Proofs.Text.Front

/-!
# Specifiers by alias and by position

A module in a directory below the one that the alias stands for can name another one in two ways:
from where it is itself, or by the alias. Both specifiers have the same base path, whatever follows
the directory in them (`absolute_beside`), and so they lead to the same module
(`relative_resolves_as_alias`).
-/
namespace ModuleRepair

open ModuleRepair.Text ModuleRepair.Path

/-- Going on from the normal form of a directory, or from where it is written. -/
theorem Path.absolute_beside {d : String} (filled : d ≠ "") (relative : isAbsolute d = false)
    (root s : String) :
    absolute (join (absolute (join root d)) ("./" ++ s)) =
      absolute (join root (d ++ "/" ++ s)) := by
  have dotted : isAbsolute ("./" ++ s) = false := by
    rw [isAbsolute_append (by decide)]
    rfl
  have longer : isAbsolute (d ++ "/" ++ s) = false := by
    rw [String.append_assoc, isAbsolute_append filled, relative]
  have whole : join root (d ++ "/" ++ s) = join root d ++ "/" ++ s := by
    simp only [String.append_assoc, join_longer filled]
  have walked : (split '/' ("./" ++ s).toList).foldl (push true) (names (join root d)) =
      (split '/' s.toList).foldl (push true) (names (join root d)) := by
    have segments : split '/' ("./" ++ s).toList = ['.'] :: split '/' s.toList := by
      rw [String.toList_append]
      exact split_append_slash ['.'] s.toList
    rw [segments, List.foldl_cons]
    rfl
  rw [absolute_join_absolute dotted, absolute_eq_iff]
  constructor
  · rw [leading_join dotted, leading_join relative, leading_join longer]
  · rw [names_join dotted, walked, whole, names_longer]

namespace Project

variable {p : Project} {importer specifier : String}

theorem basePath?_alias (p : Project) (importer below : String) :
    p.basePath? importer (p.root.mark ++ below) =
      some (absolute (join p.root.directory below)) := by
  unfold basePath?
  rw [String.toList_append, afterStart?_append]
  dsimp only
  rw [String.ofList_toList]

theorem basePath?_relative (dotted : specifier.toList.head? = some '.')
    (plain : ¬ p.root.mark.toList <+: specifier.toList) :
    p.basePath? importer specifier =
      some (absolute (join (Path.directory (p.resolvePath importer)) specifier)) := by
  have noAlias : afterStart? p.root.mark.toList specifier.toList = none := by
    refine Option.eq_none_iff_forall_ne_some.mpr fun below found => plain ?_
    exact ⟨below, (afterStart?_eq_some_iff.mp found).symm⟩
  rw [basePath?, noAlias]
  exact if_pos dotted

/-- From a directory below that of the alias, a relative specifier leads to the same module as the
alias with the directory, or neither leads to one. -/
theorem relative_resolves_as_alias {d s : String} (filled : d ≠ "")
    (relative : isAbsolute d = false)
    (inside : Path.directory (p.resolvePath importer) = absolute (join p.root.directory d))
    (plain : ¬ p.root.mark.toList <+: ("./" ++ s).toList) (q : String) :
    p.resolve? importer ("./" ++ s) = p.resolve? q (p.root.mark ++ d ++ "/" ++ s) := by
  have dotted : ("./" ++ s).toList.head? = some '.' := by
    rw [String.toList_append]
    rfl
  have whole : p.root.mark ++ d ++ "/" ++ s = p.root.mark ++ (d ++ "/" ++ s) := by
    simp only [String.append_assoc]
  rw [resolve?, resolve?, basePath?_relative dotted plain, whole, basePath?_alias, inside,
    absolute_beside filled relative]

/-- Two ways to climb out of a directory. -/
theorem price_beside_cart :
    Path.directory (shelfProject.resolvePath "src/cart/index.ts") =
      absolute (join shelfProject.root.directory "cart") ∧
    shelfProject.resolve? "src/cart/index.ts" "./../price.mts" =
      shelfProject.resolve? "main.ts" "@/cart/../price.mts" ∧
    (shelfProject.resolve? "src/cart/index.ts" "./../price.mts").map (·.path) =
      some "/app/src/price.mts" := by
  have inside : Path.directory (shelfProject.resolvePath "src/cart/index.ts") =
      absolute (join shelfProject.root.directory "cart") := by decide +kernel
  refine ⟨inside, ?_, by decide +kernel⟩
  exact relative_resolves_as_alias (s := "../price.mts") (by decide) (by decide) inside (by decide)
    "main.ts"

end Project

end ModuleRepair
