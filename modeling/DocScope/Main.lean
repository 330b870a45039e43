import DocScope.Cli.Program
import DocScope.Grammar.Script

/-!
# The command line

The outer layer: reads the tree below the working directory, carries out the command line on it,
prints what was said and writes the files that have changed. No other program is started from here,
so version control gives no answers.
-/

namespace DocScope.Main

/-- How deep directories are read. -/
def depthLimit : Nat := 64

/-- Reads a directory down to some depth. Directories that are never looked into are left out, and
so is what cannot be read. -/
def readTree : Nat → String → IO Entry
  | 0, _ => return .directory []
  | depth + 1, path => do
    let directory ← IO.FS.realPath path
    let mut entries : List (String × Entry) := []
    for e in ← directory.readDir do
      try
        match (← e.path.metadata).type with
        | .dir =>
          if !isSkipped e.fileName then
            entries := (e.fileName, ← readTree depth e.path.toString) :: entries
        | .file =>
          entries := (e.fileName, .file (← IO.FS.readBinFile e.path).toList) :: entries
        | _ => pure ()
      catch _ => pure ()
    return .directory entries

/-- The tree below the working directory. -/
def readWorld : IO World := do
  let cwd := (← IO.currentDir).toString
  let names := (cwd.splitOn "/").filter (· ≠ "")
  return ⟨Entry.put (← readTree depthLimit cwd) names (.directory []), cwd, Grammar.parser⟩

/-- What is said about a command line that is not carried out. -/
def usageText : Cli.UsageFault → String
  | .version => Report.program ++ " " ++ Report.version ++ "\n"
  | .help => usage
  | .helpForNothing => usage
  | .unknownArgument => "error: unexpected argument\n\n" ++ usage
  | .conflict => "error: arguments cannot be used together\n\n" ++ usage
  | .invalidValue => "error: a value is required\n\n" ++ usage
  | .tooManyValues => "error: unexpected value\n\n" ++ usage
  | .unknownCommand => "error: unrecognized subcommand\n\n" ++ usage
  | .missingCommand => "error: a subcommand is required\n\n" ++ usage
where
  /-- How the program is used. -/
  usage : String :=
    "Usage: " ++ Report.program ++ " [-v] <COMMAND>\n\n" ++
    "  check [PATH] [-f | -n | -s] [--format <pretty|json>] [-c <CONFIG>]\n" ++
    "  docs [PATH] [--readme <README>] [--stdout] [-c <CONFIG>]\n"

end DocScope.Main

/-- Carries out a command line. -/
def main (words : List String) : IO UInt32 := do
  let world ← DocScope.Main.readWorld
  match DocScope.Cli.run world .none words with
  | .error fault =>
    let text := DocScope.Main.usageText fault
    if fault.exitCode = 0 then IO.print text else IO.eprint text
    return fault.exitCode.toUInt32
  | .ok outcome =>
    for (path, content) in world.changes outcome.world do
      IO.FS.writeBinFile path ⟨content.toArray⟩
    IO.print outcome.stdout
    IO.eprint outcome.stderr
    return outcome.exitCode.toUInt32
