import DocScope.Check.Selector
import DocScope.Cli.Arguments

/-!
# Commands

`check` looks for functions without a doc comment, `docs` writes the documentation. Each command has
its own options; `-v` is known everywhere.
-/

namespace DocScope.Cli

/-! ## What can be given -/

/-- More messages. -/
def verboseFlag : Parameter := ⟨"verbose", some "verbose", some 'v', .flag⟩

/-- The request for help. -/
def helpOption : Parameter := ⟨"help", some "help", some 'h', .help⟩

/-- The request for the version. -/
def versionOption : Parameter := ⟨"version", some "version", some 'V', .version⟩

/-- The file with settings. -/
def configOption : Parameter := ⟨"config", some "config", some 'c', .path⟩

/-- The path that a command works on. -/
def pathOperand : Parameter := ⟨"path", none, none, .path⟩

/-- What can be given in front of a command. -/
def generalParameters : List Parameter := [verboseFlag, helpOption, versionOption]

/-- What can be given to `check`. -/
def checkParameters : List Parameter :=
  [pathOperand, ⟨"full", some "full", some 'f', .flag⟩, ⟨"new", some "new", some 'n', .flag⟩,
    ⟨"staged", some "staged", some 's', .flag⟩, ⟨"format", some "format", none, .text⟩,
    configOption, verboseFlag, helpOption]

/-- What can be given to `docs`. -/
def docsParameters : List Parameter :=
  [pathOperand, ⟨"readme", some "readme", none, .path⟩, ⟨"stdout", some "stdout", none, .flag⟩,
    configOption, verboseFlag, helpOption]

/-! ## What was given -/

/-- The arguments of `check`. -/
structure CheckArguments where
  path : Option String
  selector : Option Selector
  format : String
  config : Option String
deriving DecidableEq, Repr

/-- The arguments of `docs`. -/
structure DocsArguments where
  path : Option String
  readme : Option String
  stdout : Bool
  config : Option String
deriving DecidableEq, Repr

/-- A command with its arguments. -/
inductive Command where
  | check (arguments : CheckArguments)
  | docs (arguments : DocsArguments)
deriving DecidableEq, Repr

/-- The arguments of `check`, of which at most one is a selector. -/
def CheckArguments.ofGiven (g : Given) : Except UsageFault CheckArguments :=
  match Selector.all.filter (fun m => g.has m.name) with
  | _ :: _ :: _ => .error .conflict
  | ms => .ok
    { path := g.value? "path", selector := ms.head?, format := (g.value? "format").getD "pretty"
      config := g.value? "config" }

/-- The arguments of `docs`. -/
def DocsArguments.ofGiven (g : Given) : DocsArguments where
  path := g.value? "path"
  readme := g.value? "readme"
  stdout := g.has "stdout"
  config := g.value? "config"

/-- The words that name a command. -/
def commandNames : List String := ["check", "docs", "help"]

/-- Reads the words behind the name of a command. The command `help` explains at most one other
command. -/
def readCommand (name : String) (words : List String) : Except UsageFault Command :=
  if name = "check" then
    match Given.read checkParameters words (.start checkParameters) with
    | .error e => .error e
    | .ok g => (CheckArguments.ofGiven g).map .check
  else if name = "docs" then
    (Given.read docsParameters words (.start docsParameters)).map fun g => .docs (.ofGiven g)
  else
    match words with
    | [] => .error .help
    | [w] => if commandNames.contains w then .error .help else .error .unknownCommand
    | _ => .error .unknownCommand

/-- Reads the words of a command line from the first one that is not read yet. -/
def readWords (g : Given) : List String → Except UsageFault Command
  | [] => .error (if g.taken.isEmpty then .helpForNothing else .missingCommand)
  | w :: ws =>
    let isName := commandNames.contains w
    if isName && !g.onlyPositional then readCommand w ws
    else
      match w.toList, g.onlyPositional with
      | '-' :: _ :: _, false =>
        match Given.word generalParameters g w with
        | .error e => .error e
        | .ok g => readWords g ws
      | _, _ => .error (if isName then .unknownArgument else .unknownCommand)

/-- The command of a command line. -/
def parse (words : List String) : Except UsageFault Command :=
  readWords (.start generalParameters) words

end DocScope.Cli
