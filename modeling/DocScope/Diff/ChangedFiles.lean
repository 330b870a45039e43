import DocScope.Diff.Ascending
import DocScope.Diff.PathText

/-!
# Changed files

The files that a diff touches, as normalized paths in ascending order, restricted to a source root.
-/

namespace DocScope

/-- A set of normalized paths, ascending. -/
structure ChangedFiles where
  paths : List String
deriving DecidableEq, Repr

namespace ChangedFiles

/-- The empty set. -/
def empty : ChangedFiles := ⟨[]⟩

/-- The normalized root, if it restricts anything: the empty path and a single point do not. -/
def restriction? (sourceRoot : Option String) : Option (List Char) :=
  match sourceRoot with
  | none => none
  | some r =>
    let root := PathText.normalize r.toList
    if root = [] || root = ['.'] then none else some root

/-- Whether a normalized path is kept under a restriction. -/
def keeps (root : Option (List Char)) (path : List Char) : Bool :=
  path ≠ [] &&
    match root with
    | some r => PathText.isUnder path r
    | none => true

/-- The set of the given paths that lie under the source root. -/
def ofPaths (paths : List String) (sourceRoot : Option String) : ChangedFiles :=
  let root := restriction? sourceRoot
  let kept := (paths.map (PathText.normalize ·.toList)).filter (keeps root)
  ⟨ascending (fun a b => decide (a ≤ b)) (kept.map String.ofList)⟩

/-- Whether a path is in the set, in whatever spelling. -/
def contains (s : ChangedFiles) (path : String) : Bool := s.paths.contains (normalizePath path)

end ChangedFiles

end DocScope
