import DocScope.Json.Printer
import DocScope.Run.Finding
import DocScope.Text.Lines

/-!
# Reports

The result of a run as a text for people, with or without colours, and as JSON for programs.
-/

namespace DocScope.Report

/-- The version that reports carry. -/
def version : String := "0.1.0"

/-- The name that reports carry. -/
def program : String := "doccheck"

/-- The skeleton of a doc comment, shown after a failed check. -/
def docTemplate : String :=
  "/**\n" ++
  " * Description of the function\n" ++
  " * @param \x7btype\x7d paramName - Description of the parameter\n" ++
  " * @returns \x7btype\x7d Description of the return value\n" ++
  " */"

/-! ## For people -/

/-- The ways a piece of a report is set off. -/
inductive Style where
  | cyanBold
  | dimmed
  | red
  | blue
  | green
  | bold

/-- The code of a style. -/
def Style.code : Style → String
  | .cyanBold => "1;36"
  | .dimmed => "2"
  | .red => "31"
  | .blue => "34"
  | .green => "32"
  | .bold => "1"

/-- Sets off a text when colours are on. -/
def styled (color : Bool) (s : Style) (text : String) : String :=
  if color then "\x1b[" ++ s.code ++ "m" ++ text ++ "\x1b[0m" else text

/-- Fills a text with blanks on the left. -/
def padLeft (width : Nat) (s : String) : String :=
  .ofList (List.replicate (width - s.length) ' ' ++ s.toList)

/-- `s` when `n` is not one. -/
def plural (n : Nat) : String := if n = 1 then "" else "s"

/-- The line above the findings of a file. -/
def fileLine (color : Bool) (file : String) : String :=
  "  " ++ styled color .red "✗" ++ " " ++ styled color .blue file

/-- The line of a finding. -/
def findingLine (color : Bool) (f : Finding) : String :=
  "    " ++ styled color .dimmed (padLeft 5 (Nat.repr f.line ++ ":")) ++ " " ++ f.message

/-- The lines of findings; `current` is the file of the finding before. -/
def findingLines (color : Bool) (current : Option String) : List Finding → List String
  | [] => []
  | f :: fs =>
    let head :=
      if current = some f.file then []
      else (if current.isSome then [""] else []) ++ [fileLine color f.file]
    head ++ findingLine color f :: findingLines color (some f.file) fs

/-- All findings, with a blank line after them. -/
def findingsBlock (color : Bool) (fs : List Finding) : List String :=
  findingLines color none fs ++ if fs.isEmpty then [] else [""]

/-- The lines at the end of a report. -/
def summaryLines (color : Bool) (r : DetectionResult) : List String :=
  if r.isClean then
    ["  " ++ styled color .green "✓ All checked functions have JSDoc comments"]
  else
    let count := r.findings.length
    let files := r.filesWithFindings
    ["  " ++ styled color .red ("✗ " ++ Nat.repr count ++ " function" ++ plural count ++
        " without a JSDoc comment in " ++ Nat.repr files ++ " file" ++ plural files),
      "",
      "  " ++ styled color .bold "Add a JSDoc comment to every function:"] ++
    (Text.lines docTemplate.toList).map (fun l => "    " ++ styled color .dimmed (.ofList l)) ++ [""]

/-- All lines of a report. -/
def prettyLines (color : Bool) (path : String) (r : DetectionResult) : List String :=
  ["", "  " ++ styled color .cyanBold program ++ " v" ++ version, "",
    "  " ++ styled color .dimmed "Scanning: " ++ path,
    "  " ++ styled color .dimmed "Mode:     " ++ r.mode.description,
    "  " ++ styled color .dimmed "Files:    " ++ Nat.repr r.scanned,
    ""] ++ findingsBlock color r.findings ++ summaryLines color r

/-- A report for people. -/
def pretty (color : Bool) (path : String) (r : DetectionResult) : String :=
  String.join ((prettyLines color path r).map (· ++ "\n"))

/-! ## For programs -/

/-- A finding as JSON. -/
def findingJson (f : Finding) : Json :=
  .object ([("file", .string f.file), ("line", .nat f.line), ("name", .string f.name),
    ("message", .string f.message)] ++
    (f.note.map fun n => ("annotation", Json.string n.name)).toList)

/-- A report for programs. -/
def json (path : String) (r : DetectionResult) : Json :=
  .object [("version", .string version), ("path", .string path), ("mode", .string r.mode.name),
    ("passed", .bool r.isClean), ("files_scanned", .nat r.scanned),
    ("violation_count", .nat r.findings.length),
    ("violations", .array (r.findings.map findingJson))]

end DocScope.Report
