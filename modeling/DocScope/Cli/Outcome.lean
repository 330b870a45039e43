import DocScope.Config.Decode

/-!
# The outcome of a command

A command leaves an exit code, what it printed, and the files as they are afterwards.
-/

namespace DocScope.Cli

/-- What a command leaves behind. -/
structure Outcome where
  exitCode : Nat
  stdout : String
  stderr : String
  world : World

namespace Outcome

/-- A command that printed something. -/
def printed (w : World) (exitCode : Nat) (text : String) : Outcome := ⟨exitCode, text, "", w⟩

/-- A command that printed a warning only. -/
def warned (w : World) (exitCode : Nat) (text : String) : Outcome := ⟨exitCode, "", text, w⟩

/-- A command that could not be carried out. -/
def failed (w : World) (message : String) : Outcome := ⟨2, "", "Error: " ++ message ++ "\n", w⟩

end Outcome

/-- Carries on with the settings of the given file, or of a file in the working directory. -/
def withSettings (w : World) (path : Option String)
    (next : Config → List (List Glob.Piece) → Outcome) : Outcome :=
  match Config.load w path w.cwd with
  | .error e => .failed w e.message
  | .ok config =>
    match config.patterns with
    | .error e => .failed w e.message
    | .ok patterns => next config patterns

end DocScope.Cli
