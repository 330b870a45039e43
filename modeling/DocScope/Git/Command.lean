import DocScope.Diff.VersionControl
import DocScope.Text.Lines

/-!
# Version control by a command

`Git` asks its questions by running a program in the directory of the repository. What running a
program comes to is the business of a `ProcessHost`; this module says which arguments are passed,
and how exit codes and output are read.
-/

namespace DocScope

/-- What running a program comes to. -/
inductive ProcessResult where
  /-- It cannot be started. -/
  | notStarted (cause : FileError)
  /-- It ends after the given time. -/
  | exited (milliseconds code : Nat) (stdout stderr : List UInt8)
deriving DecidableEq, Repr

/-- Runs programs: the program, the directory it runs in and its arguments. -/
structure ProcessHost where
  run : (program directory : String) → (arguments : List String) → ProcessResult

/-- Runs of a program that are known beforehand. -/
structure RecordedRun where
  /-- The arguments with single spaces between them. -/
  arguments : String
  milliseconds : Nat
  code : Nat
  stdout : List UInt8
  stderr : List UInt8
deriving DecidableEq, Repr

namespace ProcessHost

/-- The host on which no program can be started. -/
def none : ProcessHost := ⟨fun _ _ _ => .notStarted .notFound⟩

/-- What the program says about arguments that were not recorded. -/
def notRecorded : ProcessResult :=
  .exited 0 128 []
    (Text.Utf8.bytesOf "fatal: not a git repository (or any of the parent directories): .git")

/-- The host on which `program` answers from recorded runs. A run needs an existing directory. -/
def recorded (world : World) (program : String) (runs : List RecordedRun) : ProcessHost where
  run name directory arguments :=
    match world.resolve directory with
    | .error e => .notStarted e
    | .ok names =>
      match world.root.find? names with
      | some (.directory _) =>
        if name = program then
          match runs.find? (·.arguments == " ".intercalate arguments) with
          | some r => .exited r.milliseconds r.code r.stdout r.stderr
          | .none => notRecorded
        else .notStarted .notFound
      | _ => .notStarted .notADirectory

end ProcessHost

/-- A repository that is asked through a program. -/
structure Git where
  host : ProcessHost
  program : String
  root : String
  timeoutMs : Nat

namespace Git

/-- How long a run may take unless said otherwise, in milliseconds. -/
def defaultTimeoutMs : Nat := 5000

/-- The arguments in front of all others: file names are not to be quoted. -/
def options : List String := ["-c", "core.quotePath=false"]

/-- What the program prints. -/
def output (g : Git) (arguments : List String) : Except VcsError String :=
  let command := " ".intercalate (g.program :: arguments)
  match g.host.run g.program g.root (options ++ arguments) with
  | .notStarted cause => .error (.spawn g.program cause)
  | .exited ms code stdout stderr =>
    if g.timeoutMs ≤ ms then .error (.timeout command g.timeoutMs)
    else if code = 0 then .ok (.ofList (Text.Utf8.decodeLossy stdout))
    else
      let text := Text.trim (Text.Utf8.decodeLossy stderr)
      if Text.occursIn "not a git repository".toList (Text.asciiLower text) then
        .error (.notARepository g.root)
      else .error (.failed command code (.ofList text))

/-- The repository whose root is the top level around the current root; the current root stays when
the program gives no answer. -/
def discover (g : Git) : Git :=
  match g.output ["rev-parse", "--show-toplevel"] with
  | .ok out =>
    let top := Text.trim out.toList
    if top = [] then g else { g with root := .ofList top }
  | .error _ => g

/-- Whether the root lies in a work tree. -/
def isRepository (g : Git) : Bool :=
  match g.output ["rev-parse", "--is-inside-work-tree"] with
  | .ok out => Text.trim out.toList == "true".toList
  | .error _ => false

/-- The arguments that ask for a diff. -/
def diffArguments : DiffScope → List String
  | .workingTree => ["diff", "HEAD", "--no-color", "--no-ext-diff"]
  | .index => ["diff", "--cached", "--no-color", "--no-ext-diff"]

/-- The files that differ: the printed lines that are not blank. -/
def changedFiles (g : Git) (scope : DiffScope) : Except VcsError (List String) :=
  (g.output (diffArguments scope ++ ["--name-only"])).map fun out =>
    (((Text.lines out.toList).map Text.trim).filter (· ≠ [])).map String.ofList

/-- The lines that the diff adds to a file. -/
def addedLines (g : Git) (scope : DiffScope) (path : String) : Except VcsError (List Nat) :=
  match g.output (diffArguments scope ++ ["-U0", "--", path]) with
  | .error e => .error e
  | .ok out =>
    match AddedLines.ofDiff? out with
    | some s => .ok s.lines
    | none => .error .rangeTooLarge

/-- The backend that asks the program. -/
def backend (g : Git) : VersionControl where
  changedFiles _ scope := g.changedFiles scope
  addedLines _ scope path := g.addedLines scope path

end Git

end DocScope
