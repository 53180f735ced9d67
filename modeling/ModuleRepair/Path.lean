import ModuleRepair.Text.Lines
import ModuleRepair.Text.Cased

/-!
# Paths

Paths are written with slashes. Normalizing drops empty and `.` segments and lets `..` cancel the
segment before it; two leading slashes, and only two, are kept. Relative paths are taken from the
root, which is the working directory.
-/
namespace ModuleRepair.Path

open ModuleRepair.Text

/-- A segment between two slashes. -/
abbrev Segment := List Char

/-- The segment that stands for the parent directory. -/
def parent : Segment := ['.', '.']

/-- The number of leading slashes that count: none, one, or exactly two. -/
def rootSlashes : List Char → Nat
  | '/' :: '/' :: '/' :: _ => 1
  | '/' :: '/' :: _ => 2
  | '/' :: _ => 1
  | _ => 0

/-- Adds one segment to the reversed list of those kept so far. Above the root there is nothing. -/
def push (rooted : Bool) (kept : List Segment) (s : Segment) : List Segment :=
  if s = [] ∨ s = ['.'] then kept
  else if s = parent then
    match kept with
    | [] => if rooted then [] else [s]
    | top :: rest => if top = parent then s :: kept else rest
  else s :: kept

/-- The segments that are left of a path. -/
def reduce (rooted : Bool) (segments : List Segment) : List Segment :=
  (segments.foldl (push rooted) []).reverse

/-- A path of the given number of leading slashes and segments; the empty one is a dot. -/
def ofSegments (slashes : Nat) (segments : List Segment) : List Char :=
  let text := List.replicate slashes '/' ++ Text.join ['/'] segments
  if text.isEmpty then ['.'] else text

def normalizeText (p : List Char) : List Char :=
  let slashes := rootSlashes p
  ofSegments slashes (reduce (slashes != 0) (split '/' p))

def normalize (p : String) : String :=
  String.ofList (normalizeText p.toList)

/-- A path without empty segments and dots; steps to parent directories stay. -/
def tidy (p : String) : String :=
  let segments := (split '/' p.toList).filter fun s => s ≠ [] ∧ s ≠ ['.']
  String.ofList (ofSegments (rootSlashes p.toList) segments)

/-- Whether a path starts at the root. -/
def isAbsolute (p : String) : Bool :=
  p.toList.head? == some '/'

/-- A path taken from a directory; an absolute path stays as it is. -/
def join (directory p : String) : String :=
  if isAbsolute p then p
  else if directory.toList.isEmpty || directory.toList.getLast? == some '/' then directory ++ p
  else directory ++ "/" ++ p

/-- The normal form of a path taken from the root. -/
def absolute (p : String) : String :=
  normalize (join "/" p)

/-- A path cut behind its last slash. -/
def cut (p : List Char) : List Char × List Char :=
  let name := (p.reverse.takeWhile (· != '/')).reverse
  (p.take (p.length - name.length), name)

/-- The directory of a path, without the slashes that follow it unless it is all slashes. -/
def directory (p : String) : String :=
  let head := (cut p.toList).1
  String.ofList (if head.all (· == '/') then head
    else (head.reverse.dropWhile (· == '/')).reverse)

/-- The last segment of a path. -/
def name (p : String) : String :=
  String.ofList (cut p.toList).2

/-- A path cut before the extension of its last segment. Leading dots start no extension. -/
def cutExtension (p : List Char) : List Char × List Char :=
  let base := (cut p).2
  let stem := base.dropWhile (· == '.')
  let tail := (stem.reverse.takeWhile (· != '.')).reverse
  if tail.length == stem.length then (p, [])
  else (p.take (p.length - tail.length - 1), '.' :: tail)

def withoutExtension (p : String) : String :=
  String.ofList (cutExtension p.toList).1

/-- The extension of a path, with its dot; empty when there is none. -/
def extension (p : String) : String :=
  String.ofList (cutExtension p.toList).2

/-- The segments of a path from the root, without empty ones. -/
def absoluteSegments (p : String) : List Segment :=
  (split '/' (absolute p).toList).filter (!·.isEmpty)

/-- What is left of two lists behind their common beginning. -/
def afterCommon : List Segment → List Segment → List Segment × List Segment
  | a :: as, b :: bs => if a = b then afterCommon as bs else (a :: as, b :: bs)
  | as, bs => (as, bs)

/-- A path as seen from a directory. -/
def relative (p start : String) : String :=
  let (path, up) := afterCommon (absoluteSegments p) (absoluteSegments start)
  let segments := up.map (fun _ => parent) ++ path
  String.ofList (if segments.isEmpty then ['.'] else Text.join ['/'] segments)

/-- A path with every backslash written as a slash. -/
def forwardSlashes (p : String) : String :=
  String.ofList (p.toList.map fun c => if c == '\\' then '/' else c)

/-- The paths of the directories above a path, from the root down. -/
def ancestors (p : String) : List String :=
  let segments := absoluteSegments p
  (List.range segments.length).map fun n =>
    String.ofList ('/' :: Text.join ['/'] (segments.take n))

end ModuleRepair.Path
