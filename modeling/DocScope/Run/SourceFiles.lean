import DocScope.Config.Basic
import DocScope.Diff.PathText

/-!
# The files of a source tree

A walk goes through a directory depth first, with the entries of each directory in the order of
their names. Hidden directories and directories with built or foreign code are passed over; the
directory where the walk starts is not.

* `Entry.filesBelow` : all files of a walk;
* `isCandidate` : which of them are checked;
* `collectFiles` : the files of a walk that are checked.
-/

namespace DocScope

/-- Directories of built and foreign code. -/
def skippedDirectories : List String := ["node_modules", "dist", "build", "coverage", "vendor"]

/-- Whether a walk passes over directories with a name. -/
def isSkipped (name : String) : Bool :=
  name.toList.head? == some '.' || skippedDirectories.contains name

/-- The path of an entry of a directory. -/
def pathBelow (directory name : String) : String := .ofList (Path.join directory.toList name.toList)

mutual

/-- The paths of the files below an entry, in the order of a walk; `path` is the path of the
entry. -/
def Entry.filesBelow (path : String) : Entry → List String
  | .file _ => [path]
  | .directory es =>
    ((Entry.filesOfEach path es).mergeSort fun a b => decide (a.1 ≤ b.1)).flatMap (·.2)

/-- For each entry of a directory its name and the paths of the files below it. -/
def Entry.filesOfEach (path : String) : List (String × Entry) → List (String × List String)
  | [] => []
  | (name, e) :: es =>
    let files := if e.isDirectory && isSkipped name then [] else e.filesBelow (pathBelow path name)
    (name, files) :: Entry.filesOfEach path es

end

/-- Whether a file is checked: it is supported, its extension counts, and neither its path nor its
path seen from `base` is left out. -/
def isCandidate (config : Config) (excluded : String → Bool) (base path : String) : Bool :=
  let relative := (Path.below? base.toList path.toList).getD path.toList
  isSupported path && config.includesExtension (extensionOf path) &&
    !(excluded path || excluded (normalizePath (.ofList relative)))

/-- A directory that cannot be walked through. -/
structure WalkError where
  path : String
  cause : FileError
deriving DecidableEq, Repr

/-- The text of an error. -/
def WalkError.message (e : WalkError) : String :=
  "IO error for operation on " ++ e.path ++ ": " ++ e.cause.message

/-- The files below `root` that are checked. -/
def collectFiles (w : World) (config : Config) (excluded : String → Bool) (root : String) :
    Except WalkError (List String) :=
  match w.resolve root with
  | .error cause => .error ⟨root, cause⟩
  | .ok names =>
    match w.root.find? names with
    | none => .error ⟨root, .notFound⟩
    | some e => .ok ((e.filesBelow root).filter (isCandidate config excluded root))

end DocScope
