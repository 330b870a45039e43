import DocScope.Cli.Command
import DocScope.Cli.Outcome
import DocScope.Git.Command
import DocScope.Run.Report
import DocScope.Run.Runner
import DocScope.Run.SourceFiles
import DocScope.Text.Quoted

/-!
# The command `check`

The files to check are those below a path, or under a selector of changes the changed files that
count. The exit code says whether something was found.
-/

namespace DocScope.Cli

/-- How findings are printed. -/
inductive Format where
  | pretty
  | json
deriving DecidableEq, Repr

/-- The format with a name. -/
def Format.ofName? : String → Option Format
  | "pretty" => some .pretty
  | "json" => some .json
  | _ => none

/-- A check that is ready to run. -/
structure Check where
  world : World
  config : Config
  patterns : List (List Glob.Piece)
  selector : Selector
  /-- The path on the command line. -/
  path : Option String
  /-- The repository around the working directory. -/
  git : Git

namespace Check

/-- The check that settings and arguments ask for. -/
def make (w : World) (host : ProcessHost) (config : Config) (patterns : List (List Glob.Piece))
    (args : CheckArguments) : Check where
  world := w
  config := config
  patterns := patterns
  selector := args.selector.getD config.mode
  path := args.path
  git := Git.discover
    { host, program := config.git.program, root := w.cwd, timeoutMs := config.git.timeoutMs }

/-- The directory of the settings in which changes count. -/
def sourceDirectory (c : Check) : String := pathBelow c.world.cwd c.config.sourceRoot

/-- The path that is checked. -/
def target (c : Check) : String := c.path.getD c.sourceDirectory

/-- The path as it is shown. -/
def shownPath (c : Check) : String := c.path.getD c.config.sourceRoot

/-- The source directory seen from the root of the repository; `none` if one of them does not exist
or the directory lies outside. -/
def sourceRoot? (c : Check) : Option String :=
  match c.world.canonical c.sourceDirectory, c.world.canonical c.git.root with
  | .ok directory, .ok root =>
    (Path.below? root.toList directory.toList).map fun p => normalizePath (.ofList p)
  | _, _ => none

/-- The run of the check. -/
def runner (c : Check) : Runner where
  world := c.world
  root := c.git.root
  selector := c.selector
  vcs := c.git.backend
  sourceRoot := c.sourceRoot?

/-- Whether a file counts, seen from a directory. -/
def counts (c : Check) (base file : String) : Bool :=
  isCandidate c.config (Config.excludes c.patterns) base file

/-- The existing place that a path on the command line restricts changes to. -/
def within? (c : Check) : Option String :=
  c.path.bind fun p => (c.world.canonical p).toOption

/-- Whether a changed file is to be checked. -/
def takes (c : Check) (file : String) : Bool :=
  c.counts c.git.root file && c.within?.all fun p => Path.startsWith p.toList file.toList

/-- Why the files to check are not known. -/
inductive Fault where
  | inaccessible (path : String) (cause : FileError)
  | walk (error : WalkError)
deriving DecidableEq, Repr

/-- The text of a fault. -/
def Fault.message : Fault → String
  | .inaccessible path cause => "cannot access path " ++ Text.quotedPath path ++ ": " ++ cause.message
  | .walk e => e.message

/-- The files at or below the target. A file that is named itself is always checked. -/
def filesAtTarget (c : Check) : Except Fault (List String) :=
  match c.world.canonical c.target with
  | .error cause => .error (.inaccessible c.target cause)
  | .ok path =>
    if c.world.isDirectory path then
      match collectFiles c.world c.config (Config.excludes c.patterns) path with
      | .error e => .error (.walk e)
      | .ok files => .ok files
    else .ok [path]

/-- The files to check. -/
def files (c : Check) (s : Session) : Except Fault (List String × Session) :=
  match c.selector.diffScope? with
  | none => c.filesAtTarget.map (·, s)
  | some _ =>
    let (changed, s) := c.runner.changedFiles s
    .ok (changed.filter c.takes, s)

/-- The report of a result. -/
def report (c : Check) (format : Format) (r : DetectionResult) : String :=
  match format with
  | .json => (Report.json c.shownPath r).pretty ++ "\n"
  | .pretty => Report.pretty false c.shownPath r

/-- What is said when there is nothing to check. -/
def nothingToCheck (c : Check) (format : Format) : Outcome :=
  match format with
  | .json => .printed c.world 0 (c.report format (.empty c.selector))
  | .pretty =>
    match c.selector with
    | .full => .warned c.world 0 "Warning: no files to scan\n"
    | m => .printed c.world 0
      ("✓ No changed JS/TS files to check (" ++ m.description ++ ")\n")

/-- Runs the check. -/
def run (c : Check) (format : Format) : Outcome :=
  match c.files .fresh with
  | .error e => .failed c.world e.message
  | .ok ([], _) => c.nothingToCheck format
  | .ok (files, s) =>
    let result := (c.runner.run files s).1
    .printed c.world (if result.isClean then 0 else 1) (c.report format result)

end Check

/-- The command `check`. -/
def runCheck (w : World) (host : ProcessHost) (args : CheckArguments) : Outcome :=
  match Format.ofName? args.format with
  | none =>
    .failed w ("invalid format " ++ Text.quoted args.format ++ ", must be 'pretty' or 'json'")
  | some format =>
    withSettings w args.config fun config patterns =>
      (Check.make w host config patterns args).run format

end DocScope.Cli
