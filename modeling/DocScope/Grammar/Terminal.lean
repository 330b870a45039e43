import DocScope.Grammar.Semicolon

/-!
# Terminals

`Terminal.read` reads one token at a stand. Most tokens come after the gap and the comments in
front of them; the text of templates and of markup starts right after the token before it.
-/

namespace DocScope.Grammar

/-- The kinds of tokens. -/
inductive Terminal where
  /-- A punctuation mark; a longer mark that starts with it does not fit. -/
  | punct (text : String)
  /-- A part of a punctuation mark, whatever follows it. -/
  | glyph (text : String)
  /-- Characters right after the token before, without a gap. -/
  | tight (text : String)
  /-- A keyword. -/
  | keyword (word : String)
  /-- A word that is not reserved. -/
  | identifier
  /-- Any word. -/
  | word
  /-- A word with a number sign in front. -/
  | privateName
  /-- The name of a tag or of an attribute in markup; it may contain hyphens. -/
  | markupName
  /-- A number. -/
  | number
  /-- A string on one line. -/
  | string
  /-- A string in markup, which may span lines and has no escapes. -/
  | markupString
  /-- A regular expression. -/
  | regex
  /-- Text of a template. -/
  | templateText
  /-- Text between tags. -/
  | markupText
  /-- The line `#!…` at the start of a source. -/
  | interpreterLine
  /-- Nothing, provided that no line ends before the next token. -/
  | sameLine
  /-- The semicolon that is inserted at the end of a statement. -/
  | automaticSemicolon (operand : Bool)
  /-- The end of the source. -/
  | endOfInput
deriving DecidableEq, Repr

/-- The words that are no identifiers. -/
def reservedWords : List String :=
  ["break", "case", "catch", "class", "const", "continue", "debugger", "default", "delete", "do",
   "else", "export", "extends", "finally", "for", "function", "if", "import", "in", "instanceof",
   "new", "null", "return", "super", "switch", "this", "throw", "true", "false", "try", "typeof",
   "var", "void", "while", "with", "enum"]

/-! ## Lengths of tokens -/

/-- The length of a number in front; zero if there is none. -/
def numberLength (r : List Glyph) : Nat :=
  let part (c : Char) := c.isAlphanum || c == '_'
  match r with
  | a :: b :: t =>
    if a.char == '0' && "xXoObB".toList.contains b.char then countWhile part t + 2
    else
      let whole := countWhile (fun c => c.isDigit || c == '_') r
      let fraction :=
        match r.drop whole with
        | p :: t => if p.char == '.' then countWhile (fun c => c.isDigit || c == '_') t + 1 else 0
        | [] => 0
      if whole == 0 && fraction ≤ 1 then 0
      else
        let n := whole + fraction
        match r.drop n with
        | e :: s :: t =>
          if e.char == 'e' || e.char == 'E' then
            if s.char == '+' || s.char == '-' then n + 2 + countWhile part t
            else n + 1 + countWhile part (s :: t)
          else n + (if e.char == 'n' then 1 else 0)
        | [e] => n + (if e.char == 'n' then 1 else 0)
        | [] => n
  | [a] => if a.char.isDigit then 1 else 0
  | [] => 0

/-- The length of a string's rest up to its closing quote; `none` if the line ends first. -/
def stringRest? (quote : Char) : List Glyph → Option Nat
  | [] => none
  | g :: r =>
    if g.char == quote then some 1
    else if g.char == '\n' || g.char == '\r' then none
    else if g.char == '\\' then
      match r with
      | [] => none
      | _ :: r => (stringRest? quote r).map (· + 2)
    else (stringRest? quote r).map (· + 1)

/-- The length of a markup string's rest. -/
def markupStringRest? (quote : Char) : List Glyph → Option Nat
  | [] => none
  | g :: r => if g.char == quote then some 1 else (markupStringRest? quote r).map (· + 1)

/-- The length of a regular expression's rest up to its closing slash; inside brackets a slash is
an ordinary character. -/
def regexRest? (bracket : Bool) : List Glyph → Option Nat
  | [] => none
  | g :: r =>
    if g.char == '\n' then none
    else if g.char == '\\' then
      match r with
      | [] => none
      | _ :: r => (regexRest? bracket r).map (· + 2)
    else if bracket then (regexRest? (g.char != ']') r).map (· + 1)
    else if g.char == '/' then some 1
    else (regexRest? (g.char == '[') r).map (· + 1)

/-- The length of the text of a template up to its end or to the next substitution. -/
def templateTextLength : List Glyph → Nat
  | [] => 0
  | [g] => if g.char == '\x60' then 0 else 1
  | a :: b :: r =>
    if a.char == '\x60' || (a.char == '$' && b.char == '\x7b') then 0
    else if a.char == '\\' then templateTextLength r + 2
    else templateTextLength (b :: r) + 1

/-- Turns a length into a result; a length of zero is none. -/
def positive (n : Nat) : Option Nat := if n = 0 then none else some n

/-- The length of the token in front of `r`; `word` and `sign` are the word and the mark there. -/
def Terminal.length? (t : Terminal) (sign word : String) (r : List Glyph) : Option Nat :=
  match t with
  | .punct s => if sign == s then some s.length else none
  | .glyph s => if startsWith s.toList r then some s.length else none
  | .tight s => if startsWith s.toList r then some s.length else none
  | .keyword w => if word == w then some w.length else none
  | .identifier => if reservedWords.contains word then none else positive word.length
  | .word => positive word.length
  | .privateName =>
    match r with
    | g :: r => if g.char == '#' then (positive (wordLength r)).map (· + 1) else none
    | [] => none
  | .markupName =>
    match r with
    | g :: _ =>
      if isNamePart g.char && !g.char.isDigit then
        positive (countWhile (fun c => isNamePart c || c == '-') r)
      else none
    | [] => none
  | .number => positive (numberLength r)
  | .string =>
    match r with
    | g :: r => if g.char == '"' || g.char == '\'' then (stringRest? g.char r).map (· + 1) else none
    | [] => none
  | .markupString =>
    match r with
    | g :: r =>
      if g.char == '"' || g.char == '\'' then (markupStringRest? g.char r).map (· + 1) else none
    | [] => none
  | .regex =>
    match r with
    | g :: r =>
      if g.char == '/' then
        (regexRest? false r).map fun n => n + 1 + countWhile Char.isAlpha (r.drop n)
      else none
    | [] => none
  | .templateText => positive (templateTextLength r)
  | .markupText => positive (countWhile (fun c => c != '<' && c != '\x7b') r)
  | .interpreterLine =>
    if startsWith "#!".toList r then some (countWhile (fun c => !isLineEnd c && c != '\r') r) else none
  | .sameLine => none
  | .automaticSemicolon _ => none
  | .endOfInput => none

/-- Whether a token starts right after the one before it. -/
def Terminal.isTight : Terminal → Bool
  | .tight _ => true
  | .templateText => true
  | .markupText => true
  | _ => false

/-- The kind of the leaf of a terminal with the given text. -/
def Terminal.kind : Terminal → Kind
  | .punct s => .token s
  | .glyph s => .token s
  | .tight s => .token s
  | .keyword w => .token w
  | .identifier => .identifier
  | .word => .phrase "name"
  | .privateName => .phrase "name"
  | .markupName => .phrase "name"
  | .number => .phrase "number"
  | .string => .phrase "string"
  | .markupString => .phrase "string"
  | .regex => .phrase "regex"
  | .templateText => .phrase "text"
  | .markupText => .phrase "text"
  | .interpreterLine => .phrase "interpreter"
  | .sameLine => .hidden
  | .automaticSemicolon _ => .hidden
  | .endOfInput => .hidden

/-- Whether a line ends between the last token and the next. -/
def Stand.lineEnds (s : Stand) : Bool :=
  s.here.rest.take (s.here.rest.length - s.next.rest.length) |>.any (isLineEnd ·.char)

/-- Reads a terminal: the comments in front of it and its leaf, and the stand after it. -/
def Terminal.read (typed : Bool) (t : Terminal) (s : Stand) : Option (List Tree × Stand) :=
  match t with
  | .sameLine => if s.lineEnds then none else some ([], s)
  | .automaticSemicolon operand =>
    (Semicolon.find? typed operand s.here s.comments).map fun (taken, m, left) =>
      (taken ++ [.node .hidden none m.offset m.offset []], { s with here := m, comments := left })
  | .endOfInput =>
    if s.next.rest.isEmpty then
      some (s.comments.map (·.1) ++ [.node .hidden none s.next.offset s.next.offset []], s)
    else none
  | t =>
    let m := if t.isTight then s.here else s.next
    let comments := if t.isTight then [] else s.comments.map (·.1)
    (t.length? s.sign s.word m.rest).map fun n =>
      let after := m.advance n
      (comments ++ [.node t.kind none m.offset after.offset []], .ofMark after)

end DocScope.Grammar
