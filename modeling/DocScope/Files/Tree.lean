import DocScope.Files.Path
import DocScope.Text.Utf8
import DocScope.Tree.Parser

/-!
# Files and directories

A file system is a tree of named entries; there are no links. Paths are resolved name by name from
the root, relative ones from the working directory. `World` is what a program finds: such a file
system, the working directory, and the parser its source files are read by.
-/

namespace DocScope

/-- An entry of a file system. -/
inductive Entry where
  | file (content : List UInt8)
  | directory (entries : List (String × Entry))

instance : Inhabited Entry := ⟨.directory []⟩

/-- Why a file cannot be used. -/
inductive FileError where
  | notFound
  | notADirectory
  | isADirectory
  | notText
deriving DecidableEq, Repr

/-- The text of an error. -/
def FileError.message : FileError → String
  | .notFound => "No such file or directory (os error 2)"
  | .notADirectory => "Not a directory (os error 20)"
  | .isADirectory => "Is a directory (os error 21)"
  | .notText => "stream did not contain valid UTF-8"

namespace Entry

/-- Whether an entry is a directory. -/
def isDirectory : Entry → Bool
  | .file _ => false
  | .directory _ => true

/-- The entry with the given name in a directory. -/
def child? (e : Entry) (name : String) : Option Entry :=
  match e with
  | .file _ => none
  | .directory es => es.lookup name

/-- The entry at the end of a list of names. -/
def find? : List String → Entry → Option Entry
  | [], e => some e
  | n :: ns, e => (e.child? n).bind (find? ns)

/-- `entries` with the entry called `name` replaced, or added at the end. -/
def replace (name : String) (new : Entry) : List (String × Entry) → List (String × Entry)
  | [] => [(name, new)]
  | (n, e) :: es => if n = name then (n, new) :: es else (n, e) :: replace name new es

/-- Puts an entry at the end of a list of names; missing directories are made, and a file in the way
is replaced. -/
def put (new : Entry) : List String → Entry → Entry
  | [], _ => new
  | n :: ns, e =>
    let entries :=
      match e with
      | .file _ => []
      | .directory es => es
    .directory (replace n (put new ns ((entries.lookup n).getD (.directory []))) entries)

mutual

/-- The files below an entry with their content; `names` leads to the entry. -/
def contents (names : List String) : Entry → List (List String × List UInt8)
  | .file content => [(names, content)]
  | .directory es => contentsOfEach names es

/-- The files below each entry of a directory with their content. -/
def contentsOfEach (names : List String) : List (String × Entry) → List (List String × List UInt8)
  | [] => []
  | (n, e) :: es => contents (names ++ [n]) e ++ contentsOfEach names es

end

end Entry

/-- A file system, the working directory, which is an absolute path, and the parser of source
files. -/
structure World where
  root : Entry
  cwd : String
  parser : Parser

namespace World

/-- The absolute path with the given names. -/
def pathOf (names : List String) : String :=
  if names = [] then "/" else .ofList (names.flatMap fun n => '/' :: n.toList)

/-- Goes one piece of a path further. Everything but the empty rest of a path needs a directory. -/
def step (w : World) (names : List String) (piece : List Char) : Except FileError (List String) :=
  match w.root.find? names with
  | none => .error .notFound
  | some (.file _) => .error .notADirectory
  | some (.directory es) =>
    if piece = [] || piece = ['.'] then .ok names
    else if piece = ['.', '.'] then .ok names.dropLast
    else
      match es.lookup (.ofList piece) with
      | some _ => .ok (names ++ [.ofList piece])
      | none => .error .notFound

/-- The names on the way from the root to what a path denotes. -/
def resolve (w : World) (path : String) : Except FileError (List String) :=
  if path.toList = [] then .error .notFound
  else ((Path.join w.cwd.toList path.toList).splitOn '/').foldlM w.step []

/-- The one absolute path, without detours, of an existing file or directory. -/
def canonical (w : World) (path : String) : Except FileError String :=
  (w.resolve path).map pathOf

/-- What a path denotes. -/
def lookup? (w : World) (path : String) : Option Entry :=
  match w.resolve path with
  | .ok names => w.root.find? names
  | .error _ => none

/-- Whether a path denotes a regular file. -/
def isFile (w : World) (path : String) : Bool :=
  match w.lookup? path with
  | some (.file _) => true
  | _ => false

/-- Whether a path denotes a directory. -/
def isDirectory (w : World) (path : String) : Bool :=
  match w.lookup? path with
  | some (.directory _) => true
  | _ => false

/-- The content of a file. -/
def read (w : World) (path : String) : Except FileError (List UInt8) :=
  match w.resolve path with
  | .error e => .error e
  | .ok names =>
    match w.root.find? names with
    | some (.file content) => .ok content
    | some (.directory _) => .error .isADirectory
    | none => .error .notFound

/-- The content of a text file. -/
def readText (w : World) (path : String) : Except FileError String :=
  match w.read path with
  | .error e => .error e
  | .ok content =>
    match Text.Utf8.text? content with
    | some t => .ok t
    | none => .error .notText

/-- Writes a file. Its directory must exist. -/
def write (w : World) (path : String) (content : List UInt8) : Except FileError World :=
  match w.resolve path with
  | .ok names =>
    match w.root.find? names with
    | some (.directory _) => .error .isADirectory
    | _ => .ok { w with root := Entry.put (.file content) names w.root }
  | .error .notFound =>
    match Path.fileName? path.toList with
    | none => .error .notFound
    | some name =>
      let directory := (Path.parent? path.toList).getD []
      let directory := if directory = [] then ['.'] else directory
      match w.resolve (.ofList directory) with
      | .error e => .error e
      | .ok names =>
        match w.root.find? names with
        | some (.directory _) =>
          .ok { w with root := Entry.put (.file content) (names ++ [.ofList name]) w.root }
        | _ => .error .notADirectory
  | .error e => .error e

/-- The files of `after` that are new or have a new content since `before`, with their paths. -/
def changes (before after : World) : List (String × List UInt8) :=
  let old := before.root.contents []
  ((after.root.contents []).filter fun (names, content) => old.lookup names != some content).map
    fun (names, content) => (pathOf names, content)

end World

end DocScope
