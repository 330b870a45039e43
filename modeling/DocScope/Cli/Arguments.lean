/-!
# Arguments of a command line

A command line is read word by word. A word that starts with a hyphen names options: a long one
behind two hyphens, or several short ones behind a single hyphen. The value of an option is attached
to it or is the next word. Behind `--` every word is a positional argument.

What was given is taken in one argument late: the words of an argument are checked when the next
option comes, or at the end. So a fault in a value is found after a word that names no option at all.

* `Parameter` : what a command accepts;
* `UsageFault` : why a command line is not carried out;
* `Given.read` : reads the words of a command.
-/

namespace DocScope.Cli

/-- What follows an option, or what it asks for. -/
inductive Shape where
  /-- Nothing follows. -/
  | flag
  /-- Any text. -/
  | text
  /-- A text that is not empty. -/
  | path
  /-- The command is to be explained. -/
  | help
  /-- The version is to be shown. -/
  | version
deriving DecidableEq, Repr

/-- Something that can be given to a command. One with neither a long nor a short name is given by
its position. -/
structure Parameter where
  name : String
  long : Option String
  short : Option Char
  shape : Shape
deriving DecidableEq, Repr

namespace Parameter

/-- Whether a value follows. -/
def takesValue (p : Parameter) : Bool := p.shape == .text || p.shape == .path

/-- Whether it is given by its position. -/
def isPositional (p : Parameter) : Bool := p.long.isNone && p.short.isNone

end Parameter

/-- Why a command line is not carried out. -/
inductive UsageFault where
  /-- Nothing is given where a command is needed. -/
  | helpForNothing
  /-- The help is asked for. -/
  | help
  /-- The version is asked for. -/
  | version
  /-- A word names nothing that is known, or is one too many. -/
  | unknownArgument
  /-- Two arguments exclude each other, or one is given twice. -/
  | conflict
  /-- A value is missing or not allowed. -/
  | invalidValue
  /-- A value is attached to an option without one. -/
  | tooManyValues
  /-- A word names no command. -/
  | unknownCommand
  /-- There is no command. -/
  | missingCommand
deriving DecidableEq, Repr

/-- The exit code of a command line that is not carried out. -/
def UsageFault.exitCode : UsageFault → Nat
  | .help => 0
  | .version => 0
  | _ => 2

/-- What was given to a command so far. -/
structure Given where
  /-- The arguments that are taken in, the last one first; flags have an empty value. -/
  taken : List (String × String)
  /-- The argument that is not taken in yet, with its value if it has one. -/
  pending : Option (Parameter × Option String)
  /-- Whether the next word is the value of the pending argument. -/
  awaitsValue : Bool
  /-- Whether only positional arguments follow. -/
  onlyPositional : Bool
  /-- The positional parameters that are still open. -/
  positional : List Parameter
deriving DecidableEq, Repr

namespace Given

/-- Nothing is given. -/
def start (params : List Parameter) : Given :=
  ⟨[], none, false, false, params.filter Parameter.isPositional⟩

/-- Whether an argument was given. -/
def has (g : Given) (name : String) : Bool := g.taken.any (·.1 == name)

/-- The value of an argument. -/
def value? (g : Given) (name : String) : Option String := g.taken.lookup name

/-- Takes in an argument. A value that is missing comes before a repetition, and that before a value
that is not allowed. -/
def take (g : Given) (p : Parameter) (value : Option String) : Except UsageFault Given :=
  match p.shape with
  | .help => .error .help
  | .version => .error .version
  | .flag => if g.has p.name then .error .conflict else .ok { g with taken := (p.name, "") :: g.taken }
  | shape =>
    match value with
    | none => .error .invalidValue
    | some v =>
      if g.has p.name then .error .conflict
      else if shape = .path && v = "" then .error .invalidValue
      else .ok { g with taken := (p.name, v) :: g.taken }

/-- Takes in the pending argument. -/
def settle (g : Given) : Except UsageFault Given :=
  match g.pending with
  | none => .ok g
  | some (p, v) => { g with pending := none, awaitsValue := false }.take p v

/-- An option with a value attached to it or nothing attached. -/
def option (g : Given) (p : Parameter) (attached : Option String) : Except UsageFault Given :=
  match g.settle with
  | .error e => .error e
  | .ok g =>
    if p.takesValue && attached.isNone then
      .ok { g with pending := some (p, none), awaitsValue := true }
    else { g with awaitsValue := false }.take p attached

/-- A word behind two hyphens: a name, with a value behind an equals sign. -/
def longOption (params : List Parameter) (g : Given) (word : List Char) : Except UsageFault Given :=
  let name := word.takeWhile (· != '=')
  let attached := (word.drop name.length).tail?.map String.ofList
  match params.find? (·.long == some (.ofList name)) with
  | none => .error .unknownArgument
  | some p => if attached.isSome && !p.takesValue then .error .tooManyValues else g.option p attached

/-- The letters of a word behind a hyphen. The first option with a value takes the rest of the word,
without an equals sign in front. -/
def shortOptions (params : List Parameter) : List Char → Given → Except UsageFault Given
  | [], g => .ok g
  | c :: r, g =>
    match params.find? (·.short == some c) with
    | none => .error .unknownArgument
    | some p =>
      if p.takesValue then
        let attached :=
          match r with
          | [] => none
          | '=' :: v => some (.ofList v)
          | v => some (.ofList v)
        g.option p attached
      else
        match g.option p none with
        | .error e => .error e
        | .ok g => shortOptions params r g

/-- A word without a hyphen in front, or any word behind `--`. -/
def operand (g : Given) (word : String) : Except UsageFault Given :=
  match g.positional with
  | [] => .error .unknownArgument
  | p :: ps => g.settle.map fun g => { g with pending := some (p, some word), positional := ps }

/-- Reads one word. -/
def word (params : List Parameter) (g : Given) (w : String) : Except UsageFault Given :=
  if g.onlyPositional then g.operand w
  else
    match w.toList with
    | ['-', '-'] => .ok { g with onlyPositional := true, awaitsValue := false }
    | '-' :: '-' :: r => longOption params g r
    | '-' :: c :: r => shortOptions params (c :: r) g
    | _ =>
      match g.awaitsValue, g.pending with
      | true, some (p, _) => .ok { g with pending := some (p, some w), awaitsValue := false }
      | _, _ => g.operand w

/-- Reads the words of a command. -/
def read (params : List Parameter) (words : List String) (g : Given) : Except UsageFault Given :=
  match words.foldlM (word params) g with
  | .error e => .error e
  | .ok g => g.settle

end Given

end DocScope.Cli
