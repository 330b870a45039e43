import DocScope.Scope.Cache

/-!
# Which lines are in scope

A resolver answers, for one selector, whether a line of a file is to be checked. Under `full` every
line is. Otherwise the file has to be among the changed files of the selector's diff and the line
among the lines that the diff adds to it. A question that version control cannot answer counts as
answered by the empty set.
-/

namespace DocScope

/-- What is needed to decide whether a line is in scope. -/
structure Resolver where
  selector : Selector
  vcs : VersionControl
  world : World
  /-- The root of the repository. -/
  root : String
  /-- Only changed files under this path of the repository count. -/
  sourceRoot : Option String
  /-- Whether answers are remembered in the session. -/
  cached : Bool

namespace Resolver

/-- A resolver for the repository at `root`, which is made canonical if it exists. -/
def make (selector : Selector) (vcs : VersionControl) (world : World) (root : String)
    (sourceRoot : Option String) (cached : Bool) : Resolver :=
  let canonical :=
    match world.canonical root with
    | .ok r => r
    | .error _ => root
  { selector, vcs, world, root := canonical, sourceRoot, cached }

/-- The path of a file seen from the root of the repository; `none` for a file outside. A relative
path that does not exist is taken as already seen from there. -/
def relativePath? (r : Resolver) (file : String) : Option String :=
  let below (path : String) : Option String :=
    (Path.below? r.root.toList path.toList).map fun p => normalizePath (.ofList p)
  match r.world.canonical file with
  | .ok path => below path
  | .error _ => if Path.isAbsolute file.toList then below file else some (normalizePath file)

/-- Asks for the changed files of a diff. -/
def askChanged (r : Resolver) (scope : DiffScope) (s : Session) : ChangedFiles × Session :=
  let set :=
    match r.vcs.changedFiles s.calls scope with
    | .ok paths => ChangedFiles.ofPaths paths r.sourceRoot
    | .error _ => .empty
  (set, s.ask (.changedFiles scope))

/-- Asks for the lines that a diff adds to a file. -/
def askAdded (r : Resolver) (scope : DiffScope) (path : String) (s : Session) :
    AddedLines × Session :=
  let set :=
    match r.vcs.addedLines s.calls scope path with
    | .ok lines => AddedLines.ofList lines
    | .error _ => .empty
  (set, s.ask (.addedLines scope path))

/-- The changed files of a diff, remembered or asked for. -/
def changedIn (r : Resolver) (scope : DiffScope) (s : Session) : ChangedFiles × Session :=
  if r.cached then
    match s.cache.changed.lookup scope with
    | some set => (set, s)
    | none =>
      let (set, s) := r.askChanged scope s
      (set, s.rememberChanged scope set)
  else r.askChanged scope s

/-- The lines that a diff adds to a file, remembered or asked for. -/
def addedIn (r : Resolver) (scope : DiffScope) (path : String) (s : Session) :
    AddedLines × Session :=
  if r.cached then
    match s.cache.added.lookup (scope, path) with
    | some set => (set, s)
    | none =>
      let (set, s) := r.askAdded scope path s
      (set, s.rememberAdded scope path set)
  else r.askAdded scope path s

/-- Whether a line of a file is to be checked. -/
def inScope (r : Resolver) (file : String) (line : Nat) (s : Session) : Bool × Session :=
  match r.selector.diffScope? with
  | none => (true, s)
  | some scope =>
    match r.relativePath? file with
    | none => (false, s)
    | some path =>
      let (changed, s) := r.changedIn scope s
      if changed.contains path then
        let (added, s) := r.addedIn scope path s
        (added.contains line, s)
      else (false, s)

/-- The changed files of the selector's diff; none under `full`. -/
def changedFiles (r : Resolver) (s : Session) : ChangedFiles × Session :=
  match r.selector.diffScope? with
  | some scope => r.changedIn scope s
  | none => (.empty, s)

/-- The lines that the selector's diff adds to a file; none under `full` and for files outside. -/
def addedLines (r : Resolver) (file : String) (s : Session) : AddedLines × Session :=
  match r.selector.diffScope?, r.relativePath? file with
  | some scope, some path => r.addedIn scope path s
  | _, _ => (.empty, s)

end Resolver

end DocScope
