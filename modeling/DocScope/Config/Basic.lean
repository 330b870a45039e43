import DocScope.Analysis.Language
import DocScope.Check.Selector
import DocScope.Files.Tree
import DocScope.Glob.Match

/-!
# Settings

What is checked by default, which files count, how version control is asked and where the
documentation goes. Settings can be wrong in themselves: `Config.validate` finds the first fault.
-/

namespace DocScope

/-- How version control is asked. -/
structure GitConfig where
  /-- The program that is run. -/
  program : String
  /-- How long a run may take, in milliseconds. -/
  timeoutMs : Nat
deriving DecidableEq, Repr

/-- Where the documentation goes. -/
structure DocsConfig where
  /-- The file that is updated. -/
  readme : String
  /-- The heading of the section in it. -/
  heading : String
deriving DecidableEq, Repr

/-- All settings. -/
structure Config where
  /-- What is checked unless said otherwise. -/
  mode : Selector
  /-- The directory that is checked unless said otherwise, seen from the working directory. -/
  sourceRoot : String
  /-- The extensions that count, with or without points in front; all supported ones if there are
  none. -/
  extensions : List String
  /-- Patterns of paths that are left out. -/
  excludedPaths : List String
  git : GitConfig
  docs : DocsConfig
deriving DecidableEq, Repr

/-- Why settings cannot be used. -/
inductive ConfigError where
  /-- The file cannot be read. -/
  | unreadable (path : String) (cause : FileError)
  /-- The text is no list of settings. -/
  | malformed (path : String)
  /-- A pattern of paths cannot be read. -/
  | badPattern (pattern : String) (fault : Glob.Fault)
  | emptyProgram
  | zeroTimeout
  | unsupportedExtension (ext : String)
deriving DecidableEq, Repr

/-- The text of an error. What is wrong with a malformed text is not said. -/
def ConfigError.message : ConfigError → String
  | .unreadable path cause => "cannot read " ++ path ++ ": " ++ cause.message
  | .malformed path => "invalid config " ++ path ++ ": <yaml error>"
  | .badPattern pattern fault =>
    "invalid glob in excluded_paths: error parsing glob '" ++ pattern ++ "': " ++ fault.message
  | .emptyProgram => "git.program must not be empty"
  | .zeroTimeout => "git.timeout_ms must be positive"
  | .unsupportedExtension ext => "unsupported extension: " ++ ext

namespace Config

/-- The settings that hold when nothing is said. -/
def default : Config where
  mode := .full
  sourceRoot := "src"
  extensions := []
  excludedPaths := []
  git := ⟨"git", 5000⟩
  docs := ⟨"README.md", "API Documentation"⟩

instance : Inhabited Config := ⟨default⟩

/-- An extension without points in front. -/
def bareExtension (ext : String) : String := .ofList (ext.toList.dropWhile (· == '.'))

/-- Whether files with an extension count. -/
def includesExtension (c : Config) (ext : String) : Bool :=
  if c.extensions.isEmpty then supportedExtensions.contains ext
  else c.extensions.any (bareExtension · == ext)

/-- The patterns of one text after the other, or the first fault. -/
def readPatterns : List String → Except ConfigError (List (List Glob.Piece))
  | [] => .ok []
  | text :: texts =>
    match Glob.parse text with
    | .error fault => .error (.badPattern text fault)
    | .ok pattern => (readPatterns texts).map (pattern :: ·)

/-- The patterns of the paths that are left out. -/
def patterns (c : Config) : Except ConfigError (List (List Glob.Piece)) :=
  readPatterns c.excludedPaths

/-- Whether one of several patterns matches a path. -/
def excludes (patterns : List (List Glob.Piece)) (path : String) : Bool :=
  patterns.any (Glob.matchesPath · path)

/-- Finds the first fault of settings: in the program, the time, the extensions and the patterns, in
this order. -/
def validate (c : Config) : Except ConfigError Unit :=
  if Text.allBlank c.git.program.toList then .error .emptyProgram
  else if c.git.timeoutMs = 0 then .error .zeroTimeout
  else
    match c.extensions.find? (fun e => !supportedExtensions.contains (bareExtension e)) with
    | some e => .error (.unsupportedExtension (bareExtension e))
    | none => c.patterns.map fun _ => ()

end Config

end DocScope
