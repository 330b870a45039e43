import DocScope.Docs.Entry
import DocScope.Text.Lines

/-!
# The documentation section of a README

`render` writes a section, which starts with a heading of level two. `replace` puts it in
the place of the section with the same heading: the old section goes up to the next heading of level
two. Lines between code fences are no headings. A README without the section gets it at its end.
-/

namespace DocScope.Section

/-! ## Rendering -/

/-- One line for a parameter. -/
def renderParam (p : ParamDoc) : String :=
  "- \x60" ++ p.name ++ "\x60" ++
    (if p.type = "" then "" else " (" ++ p.type ++ ")") ++
    (if p.description = "" then "" else ": " ++ p.description) ++ "\n"

/-- The parameters of an entry. -/
def renderParams (ps : List ParamDoc) : String :=
  if ps.isEmpty then "" else "**Parameters:**\n\n" ++ String.join (ps.map renderParam) ++ "\n"

/-- The result of an entry. -/
def renderReturns : Option ReturnDoc → String
  | none => ""
  | some r =>
    "**Returns:**" ++ (if r.type = "" then "" else " " ++ r.type) ++
      (if r.description = "" then ""
       else (if r.type = "" then " " else " - ") ++ r.description) ++ "\n\n"

/-- The examples of an entry. -/
def renderExamples (es : List String) : String :=
  if es.isEmpty then ""
  else "**Examples:**\n\n" ++ String.join (es.map fun e =>
    "\x60\x60\x60typescript\n" ++ e ++ "\n\x60\x60\x60\n\n")

/-- One entry. -/
def renderEntry (e : DocEntry) : String :=
  "### " ++ e.name ++ "\n\n" ++ (if e.description = "" then "" else e.description ++ "\n\n") ++
    renderParams e.params ++ renderReturns e.returns ++ renderExamples e.examples ++
    "*File: " ++ e.file ++ "*\n\n---\n\n"

/-- A section with the given heading. -/
def render (heading : String) (entries : List DocEntry) : String :=
  let head := "## " ++ heading ++ "\n\n"
  if entries.isEmpty then head ++ "No functions with JSDoc documentation found.\n"
  else .ofList (Text.trimEnd (head ++ String.join (entries.map renderEntry)).toList ++ ['\n'])

/-! ## Replacing -/

/-- Whether a line opens or closes a code fence. -/
def isFence (line : List Char) : Bool :=
  ['\x60', '\x60', '\x60'].isPrefixOf (Text.trimStart (Text.trimEnd line))

/-- Whether a line is the given one, but for blanks at its end. -/
def isMarker (marker line : List Char) : Bool := Text.trimEnd line == marker

/-- Whether a line is a heading of level two. -/
def isHeading (line : List Char) : Bool := ['#', '#', ' '].isPrefixOf (Text.trimEnd line)

/-- Cuts before the first line outside of a fence for which `stop` holds; `fenced` says whether the
lines start inside of a fence. The second part is empty when there is no such line. -/
def cutBefore (stop : List Char → Bool) (fenced : Bool) :
    List (List Char) → List (List Char) × List (List Char)
  | [] => ([], [])
  | l :: ls =>
    if isFence l then
      let (a, b) := cutBefore stop (!fenced) ls
      (l :: a, b)
    else if !fenced && stop l then ([], l :: ls)
    else
      let (a, b) := cutBefore stop fenced ls
      (l :: a, b)

/-- The lines of a README before, in and after the section with the given marker. -/
structure Parts where
  before : List (List Char)
  old : List (List Char)
  after : List (List Char)

/-- The parts of a README around a section; `none` when it has no such section. -/
def parts? (marker : List Char) (lines : List (List Char)) : Option Parts :=
  match cutBefore (isMarker marker) false lines with
  | (_, []) => none
  | (before, l :: ls) =>
    let (old, after) := cutBefore isHeading false ls
    some ⟨before, l :: old, after⟩

/-- The line that starts a section. -/
def markerOf (heading : List Char) : List Char := ['#', '#', ' '] ++ heading

/-- The README with `newSection` in the place of the section called `heading`, or at its end. -/
def replaceText (readme heading newSection : List Char) : List Char :=
  let body := Text.trimEnd newSection
  match parts? (markerOf heading) (Text.splitInclusive readme) with
  | none =>
    let head := Text.trimEnd readme
    if head = [] then body ++ ['\n'] else head ++ ['\n', '\n'] ++ body ++ ['\n']
  | some p =>
    p.before.flatten ++ body ++ ['\n'] ++
      if p.after = [] then [] else '\n' :: p.after.flatten

/-- The README with `newSection` in the place of the section called `heading`, or at its end. -/
def replace (readme heading newSection : String) : String :=
  .ofList (replaceText readme.toList heading.toList newSection.toList)

end DocScope.Section
