import DocScope.Cli.Check
import DocScope.Cli.Docs

/-!
# The program

Reads a command line and carries out its command.
-/

namespace DocScope.Cli

/-- Carries out a command. -/
def Command.run (w : World) (host : ProcessHost) : Command → Outcome
  | .check args => runCheck w host args
  | .docs args => runDocs w args

/-- Carries out a command line. -/
def run (w : World) (host : ProcessHost) (words : List String) : Except UsageFault Outcome :=
  (parse words).map (Command.run w host)

end DocScope.Cli
