import ModuleRepair.Path
import ModuleRepair.Text.Quoted

/-!
# Script languages and file kinds

The language of a module follows from its extension alone, in any letter case. The other predicates
say which files a repair leaves alone: declaration files, vendored packages and build output.
-/
namespace ModuleRepair.Script

open ModuleRepair.Text

/-- The languages a module can be written in. -/
inductive Language where
  | typescript
  | tsx
  | javascript
  deriving DecidableEq, Repr

namespace Language

def name : Language → String
  | typescript => "typescript"
  | tsx => "tsx"
  | javascript => "javascript"

def ofName? : String → Option Language
  | "typescript" => some typescript
  | "tsx" => some tsx
  | "javascript" => some javascript
  | _ => none

theorem ofName?_name (l : Language) : ofName? l.name = some l := by cases l <;> rfl

def typed : Language → Bool
  | javascript => false
  | _ => true

/-- Whether the language has markup elements in expressions. -/
def markup : Language → Bool
  | typescript => false
  | _ => true

def extensions : List (String × Language) := [
  (".ts", typescript), (".mts", typescript), (".cts", typescript), (".tsx", tsx),
  (".js", javascript), (".jsx", javascript), (".mjs", javascript), (".cjs", javascript)]

/-- The language of a file. -/
def ofPath? (path : String) : Option Language :=
  extensions.lookup (lowerString (Path.extension path))

/-- The names of all languages, sorted. -/
def names : List String := [javascript.name, tsx.name, typescript.name]

end Language

/-- What can be wrong with the choice of a language. -/
inductive LanguageError where
  /-- The extension of the path belongs to no language. -/
  | unsupportedFile (path : String)
  | unknown (name : String)
  deriving DecidableEq, Repr

/-- The error in words. -/
def LanguageError.message : LanguageError → String
  | unsupportedFile path => "Unsupported file type: " ++ path
  | unknown name => "Unsupported language: " ++ name ++ ". Supported: ["
      ++ String.intercalate ", " (Language.names.map quoted) ++ "]"

/-- The language of a file. -/
def Language.ofPath (path : String) : Except LanguageError Language :=
  match Language.ofPath? path with
  | some l => .ok l
  | none => .error (.unsupportedFile path)

/-- The language that is named, or else that of the file. The empty name names nothing, and takes
the extension's place all the same. -/
def Language.choose (name : Option String) (path : String) : Except LanguageError Language :=
  match name with
  | none => Language.ofPath path
  | some name =>
    if name = "" then .error (.unsupportedFile path)
    else match Language.ofName? name with
      | some l => .ok l
      | none => .error (.unknown name)

/-- Whether a file is a module that can be read. -/
def isSupported (path : String) : Bool :=
  (Language.ofPath? path).isSome

/-- The endings of files that hold declarations only. -/
def declarationEndings : List String := [".d.ts", ".d.mts", ".d.cts"]

/-- Whether a file holds declarations only. -/
def isDeclarationFile (path : String) : Bool :=
  let p := lower path.toList
  declarationEndings.any fun ending => ending.toList.isSuffixOf p

/-- Whether a file belongs to a vendored package. -/
def isVendored (path : String) : Bool :=
  (splitString '/' (Path.forwardSlashes path)).contains "node_modules"

/-- Directories that hold packages or build output. -/
def outputDirectories : List String := [
  ".git", "node_modules", "bower_components", "jspm_packages", ".next", ".turbo", ".vercel",
  "dist", "build", "out", "coverage"]

/-- Whether a directory is passed over: it is hidden, or holds packages or build output. -/
def isSkippedDirectory (name : String) : Bool :=
  outputDirectories.contains name || name.toList.head? == some '.'

end ModuleRepair.Script
