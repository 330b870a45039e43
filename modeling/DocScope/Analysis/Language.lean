import DocScope.Files.Path
import DocScope.Tree.Parser

/-!
# Languages and file extensions

The extension of a file decides how it is read. Declaration files have a supported extension but
are never checked.
-/

namespace DocScope

/-- The file extensions that are checked. -/
def supportedExtensions : List String := ["ts", "tsx", "mts", "cts", "js", "jsx", "mjs", "cjs"]

/-- A language: the dialect it is read in, its name and its file extensions. -/
structure Language where
  dialect : Dialect
  name : String
  extensions : List String
deriving DecidableEq, Repr

namespace Language

/-- Scripts without types. -/
def javascript : Language := ⟨.script, "javascript", ["js", "jsx", "mjs", "cjs"]⟩

/-- Scripts with types. -/
def typescript : Language := ⟨.typed, "typescript", ["ts", "mts", "cts"]⟩

/-- Scripts with types and markup. -/
def tsx : Language := ⟨.typedMarkup, "tsx", ["tsx"]⟩

/-- What a language is called in errors. -/
def title (l : Language) : String := if l.dialect.hasTypes then "TypeScript" else "JavaScript"

/-- All languages. -/
def all : List Language := [javascript, typescript, tsx]

/-- Whether a language is read from files with the given extension. -/
def handles (l : Language) (ext : String) : Bool := l.extensions.contains ext

/-- The language of a file extension. -/
def ofExtension? (ext : String) : Option Language := all.find? (·.handles ext)

end Language

/-- The extension of a path, or the empty text. -/
def extensionOf (path : String) : String :=
  .ofList ((Path.extension? path.toList).getD [])

/-- The endings of declaration files. -/
def declarationEndings : List String := [".d.ts", ".d.mts", ".d.cts"]

/-- Whether a file is checked: its extension is supported and it is no declaration file. -/
def isSupported (path : String) : Bool :=
  let name := (Path.fileName? path.toList).getD []
  !declarationEndings.any (fun e => e.toList.isSuffixOf name) &&
    match Path.extension? path.toList with
    | some e => supportedExtensions.contains (.ofList e)
    | none => false

end DocScope
