import DocScope.Config.Basic
import DocScope.Yaml.Integer
import DocScope.Yaml.Node

/-!
# Settings in a YAML document

Settings are the fields of a mapping. A field that is missing has its default value, an unknown
field is passed over, and a field that is given twice is a fault. Nothing at all in the place of a
section or a list is an empty one.
-/

namespace DocScope

namespace Yaml.Document

/-- The text of a scalar, however it is written. -/
def text? (d : Document) (n : Node) : Option String :=
  match d.resolve n with
  | .scalar _ _ t => some (.ofList t)
  | _ => none

/-- The texts of a sequence of scalars. -/
def texts? (d : Document) (n : Node) : Option (List String) :=
  match d.resolve n with
  | .sequence _ items => items.mapM d.text?
  | .scalar _ .plain [] => some []
  | _ => none

/-- The tag of integers. -/
def integerTag : List Char := "tag:yaml.org,2002:int".toList

/-- The unsigned integer of a plain scalar, or of a literal one with the tag of integers. -/
def unsigned? (d : Document) (n : Node) : Option Nat :=
  match d.resolve n with
  | .scalar _ .plain t => Yaml.unsigned? t
  | .scalar tag .literal t => if tag = some integerTag then Yaml.unsigned? t else none
  | _ => none

/-- The scalars that stand for nothing. -/
def nullTexts : List (List Char) := [[], ['~'], "null".toList, "Null".toList, "NULL".toList]

/-- The name that is chosen by a tag with nothing behind it, or by the text of a scalar. -/
def choice? (d : Document) (n : Node) : Option String :=
  match d.resolve n with
  | .scalar (some ('!' :: name)) style t =>
    if style = .plain && nullTexts.contains t then some (.ofList name) else none
  | .scalar _ _ t => some (.ofList t)
  | _ => none

/-- A pair of a mapping with the text of its key. -/
def field? (d : Document) (p : Node × Node) : Option (String × Node) :=
  (d.text? p.1).map (·, p.2)

/-- The fields of a mapping, of which every key is a scalar. -/
def fields? (d : Document) (n : Node) : Option (List (String × Node)) :=
  match d.resolve n with
  | .mapping _ pairs => pairs.mapM d.field?
  | .scalar _ .plain [] => some []
  | _ => none

end Yaml.Document

namespace Config

/-- The value of a field, or a default value if the field is missing. -/
def field {α : Type} (fields : List (String × Yaml.Node)) (key : String)
    (decode : Yaml.Node → Option α) (absent : α) : Option α :=
  match fields.filter (·.1 = key) with
  | [] => some absent
  | [(_, n)] => decode n
  | _ => none

/-- The settings of version control. -/
def gitOf? (d : Yaml.Document) (n : Yaml.Node) : Option GitConfig := do
  let fs ← d.fields? n
  let program ← field fs "program" d.text? default.git.program
  let timeoutMs ← field fs "timeout_ms" d.unsigned? default.git.timeoutMs
  return { program, timeoutMs }

/-- The settings of the documentation. -/
def docsOf? (d : Yaml.Document) (n : Yaml.Node) : Option DocsConfig := do
  let fs ← d.fields? n
  let readme ← field fs "readme" d.text? default.docs.readme
  let heading ← field fs "heading" d.text? default.docs.heading
  return { readme, heading }

/-- The settings in a document. -/
def ofDocument? (d : Yaml.Document) : Option Config := do
  let fs ← d.fields? d.root
  let mode ← field fs "mode" (fun n => (d.choice? n).bind Selector.ofName?) default.mode
  let sourceRoot ← field fs "source_root" d.text? default.sourceRoot
  let extensions ← field fs "extensions" d.texts? default.extensions
  let excludedPaths ← field fs "excluded_paths" d.texts? default.excludedPaths
  let git ← field fs "git" (gitOf? d) default.git
  let docs ← field fs "docs" (docsOf? d) default.docs
  return { mode, sourceRoot, extensions, excludedPaths, git, docs }

/-- The settings in a text, checked for faults. A blank text says nothing. `path` is where the text
comes from. -/
def parse (text path : String) : Except ConfigError Config :=
  let config :=
    if Text.allBlank text.toList then some default
    else (Yaml.Document.parse? text).bind ofDocument?
  match config with
  | none => .error (.malformed path)
  | some c => c.validate.map fun _ => c

/-! ## Files -/

/-- The names of the files in which settings are looked for, the first one first. -/
def fileNames : List String := ["doccheck.yaml", ".doccheck.yaml"]

/-- The settings in a file. -/
def parseFile (w : World) (path : String) : Except ConfigError Config :=
  match w.readText path with
  | .error cause => .error (.unreadable path cause)
  | .ok text => parse text path

/-- The file with settings in a directory. -/
def discover? (w : World) (directory : String) : Option String :=
  (fileNames.map fun n => .ofList (Path.join directory.toList n.toList)).find? w.isFile

/-- The settings in the given file, or else in a file of the directory, or else the default ones. -/
def load (w : World) (path : Option String) (directory : String) : Except ConfigError Config :=
  match path.or (discover? w directory) with
  | some path => parseFile w path
  | none => .ok default

end Config

end DocScope
