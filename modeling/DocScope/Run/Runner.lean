import DocScope.Analysis.Source
import DocScope.Run.Finding
import DocScope.Scope.Resolver

/-!
# Checking many files

A runner checks a list of files under one selector. Version control's answers are remembered for
the whole run. A file that cannot be read or analyzed is left out.
-/

namespace DocScope

/-- The facts of a file; `none` if it cannot be read or analyzed. -/
def World.analyzeFile? (w : World) (file : String) : Option FileFacts :=
  match w.read file with
  | .error _ => none
  | .ok source =>
    match analyze w.parser file source with
    | .ok facts => some facts
    | .error _ => none

namespace Resolver

/-- What a file is called in findings: its path in the repository, or the path as given. -/
def label (r : Resolver) (file : String) : String := (r.relativePath? file).getD file

/-- The findings among the nodes of a file. -/
def checkNodes (r : Resolver) (file label : String) :
    List FunctionNode → Session → List Finding × Session
  | [], s => ([], s)
  | n :: ns, s =>
    match n.declaration? with
    | none => r.checkNodes file label ns s
    | some d =>
      let (inScope, s) := r.inScope file d.line s
      let found := if inScope then check d n.leadingComments r.selector else none
      let (rest, s) := r.checkNodes file label ns s
      ((found.map (Finding.ofViolation label)).toList ++ rest, s)

/-- The findings in a list of files, in the order of the files, and the number of files that were
analyzed. -/
def checkFiles (r : Resolver) : List String → Session → List Finding × Nat × Session
  | [], s => ([], 0, s)
  | file :: files, s =>
    match r.world.analyzeFile? file with
    | none => r.checkFiles files s
    | some facts =>
      let (found, s) := r.checkNodes file (r.label file) facts.functions s
      let (rest, scanned, s) := r.checkFiles files s
      (found ++ rest, scanned + 1, s)

end Resolver

/-- A check of the repository at `root` under one selector. -/
structure Runner where
  world : World
  root : String
  selector : Selector
  vcs : VersionControl
  sourceRoot : Option String

namespace Runner

/-- The resolver of a run. -/
def resolver (r : Runner) : Resolver :=
  .make r.selector r.vcs r.world r.root r.sourceRoot true

/-- The changed files that exist and are supported, as paths below the root. -/
def changedFiles (r : Runner) (s : Session) : List String × Session :=
  let (set, s) := r.resolver.changedFiles s
  let paths := set.paths.map fun p => .ofList (Path.join r.resolver.root.toList p.toList)
  (paths.filter fun p => isSupported p && r.world.isFile p, s)

/-- Checks the given files. -/
def run (r : Runner) (files : List String) (s : Session) : DetectionResult × Session :=
  let (findings, scanned, s) := r.resolver.checkFiles files s
  (DetectionResult.sorted ⟨r.selector, findings, scanned⟩, s)

end Runner

end DocScope
