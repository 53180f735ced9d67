import ModuleRepair.SourceFile.Basic
import ModuleRepair.Import.Render
import ModuleRepair.Import.Rewrite

/-!
# Edits of a source file

Every edit replaces one span of the text. An edit that takes a statement away takes its lines with
it, as far as nothing else stands on them (`wholeLines`).
-/
namespace ModuleRepair.SourceFile

open ModuleRepair.Text ModuleRepair.Script

/-- The file with one span of its text replaced. -/
def replaceSpan (f : SourceFile) (span : Span) (replacement : String) : SourceFile :=
  { f with text := String.ofList (splice f.text.toList span replacement.toList) }

/-- The bytes behind the last line feed. -/
def behindFeed (bytes : List UInt8) : List UInt8 :=
  (bytes.reverse.takeWhile (· != lineFeed)).reverse

/-- The span of a statement widened to whole lines. Where anything else shares its lines, the span
stays as it is. The last statement of a text takes one blank line above with it; on a last line
without an end, the line feed in front goes instead. -/
def wholeLines (bytes : List UInt8) (span : Span) : Span :=
  let before := bytes.take span.start
  let after := bytes.drop span.stop
  let left := behindFeed before
  let right := after.takeWhile (· != lineFeed)
  let lineStart := span.start - left.length
  let lineStop := span.stop + right.length
  if !left.all isBlankByte || !right.all isBlankByte then span
  else match after.dropWhile (· != lineFeed) with
    | [] => ⟨lineStart - 1, lineStop⟩
    | _ :: below =>
      let above := (before.take lineStart).dropLast
      let blank := behindFeed above
      if 0 < lineStart && below.all isBlankByte && blank.all isBlankByte then
        ⟨lineStart - 1 - blank.length, lineStop + 1⟩
      else ⟨lineStart, lineStop + 1⟩

def removeStatement (f : SourceFile) (span : Span) : SourceFile :=
  f.replaceSpan (wholeLines (bytesOf f.text.toList) span) ""

/-- The file with an import replaced by others, each on a line of its own. -/
def replaceImport (f : SourceFile) (d : Import) (replacements : List Import) : SourceFile :=
  f.replaceSpan d.span (String.intercalate f.lineEnd (replacements.map (·.render)))

def removeImport (f : SourceFile) (d : Import) : SourceFile :=
  f.removeStatement d.span

/-- The file with an import added behind the others, or else behind the prologue, or else at the
front. -/
def addImport (f : SourceFile) (d : Import) : Except LanguageError SourceFile := do
  let o ← f.outline
  match o.imports.getLast? with
  | some last => return f.replaceSpan ⟨last.span.stop, last.span.stop⟩ (f.lineEnd ++ d.render)
  | none =>
    if o.prologueEnd = 0 then return f.replaceSpan ⟨0, 0⟩ (d.render ++ f.lineEnd)
    else return f.replaceSpan ⟨o.prologueEnd, o.prologueEnd⟩ (f.lineEnd ++ d.render)

/-- The file with a declaration marked as exported; nothing when there is no such declaration, or
it is exported already. -/
def markExported (f : SourceFile) (name : String) : Except LanguageError (Option SourceFile) := do
  match (← f.outline).declaration? name with
  | none => return none
  | some d =>
    if d.exported then return none
    else return some (f.replaceSpan ⟨d.span.start, d.span.start⟩ "export ")

/-- The file without its default export; nothing when it has none. -/
def removeDefaultExport (f : SourceFile) : Except LanguageError (Option SourceFile) := do
  return (← f.outline).defaultExport.map fun d => f.removeStatement d.span

end ModuleRepair.SourceFile
