import DocScope.Analysis.Language
import DocScope.Analysis.LineScan
import DocScope.Tree.Functions

/-!
# Analysis of a source file

A file of a known language is parsed and its functions are read off the tree. A syntax error marks
the file and does not stop the reading: the functions of the tree count all the same. Any other file
is scanned by lines.
-/

namespace DocScope

/-- Why a file cannot be analyzed. -/
inductive AnalysisError where
  /-- The parser gives no tree. -/
  | unparsed (l : Language) (path : String)
  | notText (fault : Text.Utf8.Fault)
deriving DecidableEq, Repr

/-- The text of an error. -/
def AnalysisError.message : AnalysisError → String
  | .unparsed l path => "failed to parse " ++ l.title ++ " source: " ++ path
  | .notText fault => fault.message

/-- What a parsed file says. -/
def Language.facts (l : Language) (path : String) (source : List UInt8) (parsed : Parsed) :
    FileFacts :=
  ⟨path, l.name, parsed.tree.functions source, parsed.hasErrors⟩

/-- Analyzes a file by the language of its extension. -/
def analyze (parser : Parser) (path : String) (source : List UInt8) :
    Except AnalysisError FileFacts :=
  match Language.ofExtension? (extensionOf path) with
  | some l =>
    match parser l.dialect source with
    | some parsed => .ok (l.facts path source parsed)
    | none => .error (.unparsed l path)
  | none => (LineScan.scan path source).mapError .notText

end DocScope
