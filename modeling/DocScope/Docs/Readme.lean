import DocScope.Analysis.Source
import DocScope.Check.Declaration
import DocScope.Docs.DocComment
import DocScope.Docs.Section
import DocScope.Files.Tree
import DocScope.Json.Reader

/-!
# Documentation of a code base

The entries of source files, and the README that holds them. A README that does not exist starts
with the name and the description of the package next to it.
-/

namespace DocScope.Docs

/-! ## Entries of files -/

/-- The name of a declaration without one. -/
def anonymousName : String := "default"

/-- The entry of a node: its declaration has to have a doc block, of which the last counts. -/
def documented? (label : String) (node : FunctionNode) : Option DocEntry :=
  match node.declaration? with
  | none => none
  | some d =>
    (node.leadingComments.reverse.find? (·.isDocBlock)).map
      (DocComment.parse (d.name.getD anonymousName) label)

/-- The entries of analyzed nodes, in their order. -/
def entriesOf (label : String) (nodes : List FunctionNode) : List DocEntry :=
  nodes.filterMap (documented? label)

/-- The entries of a source file. -/
def entries (parser : Parser) (path label : String) (source : List UInt8) :
    Except AnalysisError (List DocEntry) :=
  (analyze parser path source).map fun facts => entriesOf label facts.functions

/-- What a file is called in the documentation: its path below `base`, with slashes. -/
def labelOf (base file : String) : String :=
  let path := (Path.below? base.toList file.toList).getD file.toList
  .ofList (path.map fun c => if c = '\\' then '/' else c)

/-- The entries of a file; none if it cannot be read. -/
def entriesOfFile (w : World) (base file : String) : List DocEntry :=
  match w.read file with
  | .error _ => []
  | .ok source =>
    match entries w.parser file (labelOf base file) source with
    | .ok es => es
    | .error _ => []

/-- The entries of all files. -/
def entriesOfFiles (w : World) (base : String) (files : List String) : List DocEntry :=
  files.flatMap (entriesOfFile w base)

/-! ## The README -/

/-- The name and the description of a package. -/
structure Package where
  name : Option String
  description : Option String
deriving DecidableEq, Repr

/-- An optional text. -/
def optionalText? : Json → Option (Option String)
  | .null => some none
  | .string s => some (some s)
  | _ => none

/-- The only value of a field; `none` when the field is repeated, `null` when it is missing. -/
def field? (fields : List (String × Json)) (key : String) : Option Json :=
  match fields.filter (·.1 = key) with
  | [] => some .null
  | [(_, v)] => some v
  | _ => none

/-- Reads the description of a package: an object, or an array of the name and the description. -/
def Package.ofJson? (v : Json) : Option Package :=
  match v with
  | .object fields =>
    match (field? fields "name").bind optionalText?, (field? fields "description").bind optionalText? with
    | some n, some d => some ⟨n, d⟩
    | _, _ => none
  | .array [] => some ⟨none, none⟩
  | .array [n] => (optionalText? n).map fun n => ⟨n, none⟩
  | .array [n, d] =>
    match optionalText? n, optionalText? d with
    | some n, some d => some ⟨n, d⟩
    | _, _ => none
  | _ => none

/-- The start of a README for a package; it needs a name. -/
def Package.stub? (p : Package) : Option String :=
  p.name.map fun n =>
    "# " ++ n ++ "\n" ++
      match p.description with
      | some d => if d = "" then "" else "\n" ++ d ++ "\n"
      | none => ""

/-- The start of a README for the package described in a file. -/
def stub? (w : World) (packageFile : String) : Option String :=
  match w.readText packageFile with
  | .error _ => none
  | .ok text => ((Json.parse? text).bind Package.ofJson?).bind Package.stub?

/-- Writes the section of a README. A README that does not exist is made. -/
def updateReadme (w : World) (readme heading : String) (es : List DocEntry) :
    Except FileError World :=
  let existing : Except FileError String :=
    if w.isFile readme then w.readText readme
    else
      let directory := (Path.parent? readme.toList).getD ['.']
      .ok ((stub? w (.ofList (Path.join directory "package.json".toList))).getD "")
  match existing with
  | .error e => .error e
  | .ok text =>
    w.write readme (Text.Utf8.bytesOf (Section.replace text heading (Section.render heading es)))

end DocScope.Docs
