import DocScope.Text.Blank

/-!
# Paths as version control prints them

`normalizePath` brings a path into one spelling: without blanks and quotation marks around it, with
slashes as separators, without `./` in front and slashes at the end.
-/

namespace DocScope

namespace PathText

/-- Removes a pair of quotation marks around a text. -/
def unquote (s : List Char) : List Char :=
  match Text.stripStart? ['"'] s with
  | none => s
  | some r => (Text.stripEnd? ['"'] r).getD s

/-- Slashes in place of backslashes. -/
def withSlashes (s : List Char) : List Char := s.map fun c => if c = '\\' then '/' else c

/-- Removes every `./` in front. -/
def dropHere : List Char → List Char
  | '.' :: '/' :: r => dropHere r
  | s => s

/-- The spelling of a path that is used for comparison. -/
def normalize (s : List Char) : List Char :=
  Text.dropEnd (· == '/') (dropHere (withSlashes (unquote (Text.trim s))))

/-- Whether `path` is `root` or lies below it. -/
def isUnder (path root : List Char) : Bool :=
  path == root ||
    match Text.stripStart? root path with
    | some r => r.head? == some '/'
    | none => false

end PathText

/-- The spelling of a path that is used for comparison. -/
def normalizePath (s : String) : String := .ofList (PathText.normalize s.toList)

end DocScope
