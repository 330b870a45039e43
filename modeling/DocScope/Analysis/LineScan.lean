import DocScope.Source.FunctionNode
import DocScope.Text.Lines
import DocScope.Text.Utf8
import DocScope.Text.Word

/-!
# Scanning by lines

Files of unknown languages are scanned line by line. A line declares a function when, after its
indentation and the words `export`, `default` and `async`, it goes on with `function name`, or with
`const`, `let` or `var`, a name and a function behind the first equals sign. Nothing is recognized
across a line end.

The comments in front of a declaration are found by going backwards from it: the text before it,
without blanks at its end, either ends with a block comment, or its last line is a line comment, or
there is no further comment.
-/

namespace DocScope.LineScan

/-! ## One line -/

/-- Spaces and tabs. -/
def isIndent (c : Char) : Bool := c == ' ' || c == '\t'

/-- The characters a name may start with. -/
def isNameStart (c : Char) : Bool := c.isAlpha || c == '_' || c == '$'

/-- The characters a name may go on with. -/
def isNamePart (c : Char) : Bool := Text.isWord c || c == '$'

/-- Skips a word that is followed by at least one space or tab, and these; without such a word the
text stays as it is. -/
def skipWord (w : String) (s : List Char) : List Char :=
  match Text.stripStart? w.toList s with
  | some (c :: r) => if isIndent c then r.dropWhile isIndent else s
  | _ => s

/-- Reads a name. -/
def name? (s : List Char) : Option (List Char × List Char) :=
  match s with
  | c :: r => if isNameStart c then some (c :: r.takeWhile isNamePart, r.dropWhile isNamePart) else none
  | [] => none

/-- What follows the first arrow, if the first equals sign belongs to it. -/
def afterArrow? (s : List Char) : Option (List Char) :=
  Text.stripStart? ['=', '>'] (s.dropWhile (· != '='))

/-- What follows the keyword `function`, unless a longer word starts with it. -/
def afterFunction? (s : List Char) : Option (List Char) :=
  match Text.stripStart? "function".toList s with
  | some r => if r.head?.any Text.isWord then none else some r
  | none => none

/-- What follows a parameter list in parentheses and the arrow after it. -/
def afterParameters? (s : List Char) : Option (List Char) :=
  match s with
  | '(' :: r =>
    match r.dropWhile (· != ')') with
    | _ :: r => afterArrow? r
    | [] => none
  | _ => none

/-- What follows a single parameter and the arrow after it. -/
def afterParameter? (s : List Char) : Option (List Char) :=
  match name? s with
  | some (_, r) => Text.stripStart? ['=', '>'] (r.dropWhile isIndent)
  | none => none

/-- What follows the start of a function expression or an arrow function, up to the arrow. -/
def afterInitializer? (s : List Char) : Option (List Char) :=
  (afterFunction? s).or ((afterParameters? s).or (afterParameter? s))

/-- The forms a line can declare. -/
inductive Declared where
  /-- `function name` -/
  | function (name : List Char)
  /-- A variable with a function expression. -/
  | expression (name : List Char)
  /-- A variable with an arrow function. -/
  | arrow (name : List Char)
deriving DecidableEq, Repr

/-- The form of the function node of a declaration. -/
def Declared.form : Declared → FunctionForm
  | .function n => .declaration (some (.ofList n))
  | .expression n => .expression none (.bound (.ofList n))
  | .arrow n => .arrow (.bound (.ofList n))

/-- A variable that is bound to something starting like a function at `init`. -/
def boundTo (name init : List Char) : Declared :=
  if "function".toList.isPrefixOf init then .expression name else .arrow name

/-- Reads `function name`. -/
def functionDeclared? (s : List Char) : Option (Declared × List Char) :=
  match Text.stripStart? "function".toList s with
  | none => none
  | some r =>
    let r := r.dropWhile isIndent
    let r := if r.head? = some '*' then r.drop 1 else r
    (name? (r.dropWhile isIndent)).map fun (n, r) => (.function n, r)

/-- What follows one of the words that declare variables and the blanks after it. -/
def afterVariableWord? (s : List Char) : Option (List Char) :=
  let after (w : String) : Option (List Char) :=
    match Text.stripStart? w.toList s with
    | some (c :: r) => if isIndent c then some (r.dropWhile isIndent) else none
    | _ => none
  ((after "const").or (after "let")).or (after "var")

/-- Reads a variable and the start of the function it is bound to. -/
def variableDeclared? (s : List Char) : Option (Declared × List Char) :=
  match afterVariableWord? s with
  | none => none
  | some r =>
    match name? r with
    | none => none
    | some (n, r) =>
      match r.dropWhile (· != '=') with
      | [] => none
      | _ :: r =>
        let init := r.dropWhile isIndent
        let late := skipWord "async" init
        match afterInitializer? late with
        | some r => some (boundTo n late, r)
        | none => (afterInitializer? init).map fun r => (boundTo n init, r)

/-- Reads a declaration at the start of a line without indentation; yields what follows it. -/
def declared? (s : List Char) : Option (Declared × List Char) :=
  let s := skipWord "async" (skipWord "default" (skipWord "export" s))
  (functionDeclared? s).or (variableDeclared? s)

/-! ## Comments before a place -/

/-- Cuts a text before the last place where `/*` stands. -/
def lastOpening? : List Char → Option (List Char × List Char)
  | [] => none
  | c :: r =>
    match lastOpening? r with
    | some (before, comment) => some (c :: before, comment)
    | none => if c = '/' && r.head? = some '*' then some ([], c :: r) else none

/-- Cuts a text before its last line. -/
def lastLine (s : List Char) : List Char × List Char :=
  let l := (s.reverse.takeWhile (· != '\n')).reverse
  (s.take (s.length - l.length), l)

/-- The number of the line after the given text. -/
def lineAfter (before : List Char) : Nat := before.count '\n' + 1

/-- The last comment of a text that ends with one, its line, and the text before it. -/
def lastComment? (rest : List Char) : Option (List Char × Nat × List Char) :=
  if ['*', '/'].isSuffixOf rest then
    (lastOpening? rest).map fun (before, comment) => (comment, lineAfter before, before)
  else
    let (before, line) := lastLine rest
    let line := Text.trimStart line
    if ['/', '/'].isPrefixOf line then some (line, lineAfter before, before) else none

/-- The comments at the end of `rest`, the last one first; `fuel` bounds their number. -/
def commentsBackwards : Nat → List Char → List Comment
  | 0, _ => []
  | fuel + 1, rest =>
    match lastComment? rest with
    | none => []
    | some (comment, line, before) =>
      (Comment.parse? (.ofList comment) line).toList ++
        commentsBackwards fuel (Text.trimEnd before)

/-- The comments that end right before the end of `text`, divided only by blanks. -/
def commentsBefore (text : List Char) : List Comment :=
  (commentsBackwards text.length (Text.trimEnd text)).reverse

/-! ## A whole file -/

/-- The number of bytes of a text. -/
def byteLength (s : List Char) : Nat := s.foldr (fun c n => c.utf8Size + n) 0

/-- The function declared by `line`, which follows the text `before` of the source. -/
def functionOfLine? (source : List UInt8) (before line : List Char) : Option FunctionNode :=
  let indent := line.takeWhile isIndent
  let code := line.dropWhile isIndent
  (declared? code).map fun (found, rest) =>
    let start := byteLength before + byteLength indent
    let stop := start + (byteLength code - byteLength rest)
    let span := Span.ofOffsets source start stop
    { form := found.form, line := span.start.line, span
      leadingComments := commentsBefore (before ++ indent) }

/-- The functions declared by `lines`, which follow the text `before` of the source. -/
def functionsOfLines (source : List UInt8) (before : List Char) : List (List Char) → List FunctionNode
  | [] => []
  | l :: ls =>
    (functionOfLine? source before (Text.dropEnd (· == '\n') l)).toList ++
      functionsOfLines source (before ++ l) ls

/-- The functions that a text declares at the start of its lines. -/
def functions (source : List UInt8) (text : List Char) : List FunctionNode :=
  functionsOfLines source [] (Text.splitInclusive text)

/-- The name under which scanned files are reported. -/
def languageName : String := "ecmascript-regex"

/-- Scans a file. It fails only when the file is not UTF-8. -/
def scan (path : String) (source : List UInt8) : Except Text.Utf8.Fault FileFacts :=
  match Text.Utf8.decode source with
  | .error e => .error e
  | .ok text => .ok ⟨path, languageName, functions source text, false⟩

end DocScope.LineScan
