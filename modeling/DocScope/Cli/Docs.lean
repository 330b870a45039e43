import DocScope.Cli.Command
import DocScope.Cli.Outcome
import DocScope.Docs.Readme
import DocScope.Run.SourceFiles

/-!
# The command `docs`

The documented functions of a source tree become a section of the README, or are printed.
-/

namespace DocScope.Cli

namespace DocsArguments

/-- The path that is documented. -/
def target (args : DocsArguments) (w : World) (config : Config) : String :=
  args.path.getD (pathBelow w.cwd config.sourceRoot)

/-- The file that is updated. -/
def readmePath (args : DocsArguments) (w : World) (config : Config) : String :=
  args.readme.getD (pathBelow w.cwd config.docs.readme)

end DocsArguments

/-- The files to document and a warning. A file that is named itself is always taken; nothing is
taken from a path that does not exist. -/
def filesToDocument (w : World) (config : Config) (patterns : List (List Glob.Piece))
    (target : String) : Except WalkError (List String × String) :=
  if w.isDirectory target then
    (collectFiles w config (Config.excludes patterns) target).map (·, "")
  else if w.isFile target then .ok ([target], "")
  else .ok ([], "Warning: " ++ target ++ " not found, generating empty documentation\n")

/-- What is said after an update. -/
def updateMessage (functions files : Nat) (readme : String) : String :=
  "Found " ++ Nat.repr functions ++ " documented functions in " ++ Nat.repr files ++
    " files; updated " ++ readme ++ "\n"

/-- The command `docs`. -/
def runDocs (w : World) (args : DocsArguments) : Outcome :=
  withSettings w args.config fun config patterns =>
    match filesToDocument w config patterns (args.target w config) with
    | .error e => .failed w e.message
    | .ok (files, warning) =>
      let entries := Docs.entriesOfFiles w w.cwd files
      if args.stdout then ⟨0, Section.render config.docs.heading entries, warning, w⟩
      else
        let readme := args.readmePath w config
        match Docs.updateReadme w readme config.docs.heading entries with
        | .error e =>
          let failure := Outcome.failed w e.message
          { failure with stderr := warning ++ failure.stderr }
        | .ok after => ⟨0, updateMessage entries.length files.length readme, warning, after⟩

end DocScope.Cli
