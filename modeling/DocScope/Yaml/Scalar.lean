import DocScope.Text.Hex
import DocScope.Yaml.Cursor

/-!
# Scalars of YAML

The texts of plain, quoted and block scalars. Lines are folded: a single line break between two
lines becomes a space, and of several the first is dropped. A literal block keeps its lines.

The functions return the text and the place behind it; `none` is a fault.
-/

namespace DocScope.Yaml

/-! ## Folding -/

/-- Blanks met inside a scalar: on one line, or across line breaks. -/
structure Gap where
  /-- Spaces and tabs before any line break. -/
  blanks : List Char
  /-- The first line break. -/
  first : Option (List Char)
  /-- The line breaks after it. -/
  more : List Char
deriving DecidableEq, Repr

namespace Gap

/-- No blanks. -/
def none : Gap := ⟨[], Option.none, []⟩

/-- Whether a line break was met. -/
def isBroken (g : Gap) : Bool := g.first.isSome

/-- The text the blanks stand for. -/
def text (g : Gap) : List Char :=
  match g.first with
  | Option.none => g.blanks
  | some b =>
    if b = ['\n'] then (if g.more = [] then [' '] else g.more)
    else b ++ g.more

end Gap

/-- Reads blanks and line breaks. In front of column `indent` of a later line no tab may stand. -/
def readGap (indent : Nat) : Nat → Gap → Cursor → Option (Gap × Cursor)
  | 0, g, c => some (g, c)
  | fuel + 1, g, c =>
    match c.peek with
    | none => some (g, c)
    | some d =>
      if isGap d then
        if g.isBroken then
          if d == '\t' && c.column < indent then none else readGap indent fuel g (c.skip 1)
        else readGap indent fuel { g with blanks := g.blanks ++ [d] } (c.skip 1)
      else if isBreak d then
        let (b, c) := c.breakLine
        readGap indent fuel
          (if g.isBroken then { g with more := g.more ++ b } else { g with blanks := [], first := some b }) c
      else some (g, c)

/-! ## Plain scalars -/

/-- The brackets and the comma of flow collections. -/
def isFlowIndicator (c : Char) : Bool :=
  c == ',' || c == '[' || c == ']' || c == '{' || c == '}'

/-- The word of a plain scalar at the cursor; `none` when a colon stands in front of an indicator of
a flow collection. -/
def plainWord (inFlow : Bool) : List Char → Option (List Char)
  | [] => some []
  | c :: r =>
    if endsWord (some c) then some []
    else if inFlow && c == ':' && r.head?.any (fun d => isFlowIndicator d || d == '?') then none
    else if c == ':' && endsWord r.head? then some []
    else if inFlow && isFlowIndicator c then some []
    else (plainWord inFlow r).map (c :: ·)

/-- A plain scalar as read so far. -/
structure PlainScalar where
  text : List Char
  /-- The blanks after the text. -/
  gap : Gap
  cursor : Cursor

/-- Reads a plain scalar, of which the lines after the first start at column `indent` or later. -/
def readPlain (inFlow : Bool) (indent : Nat) : Nat → PlainScalar → Option PlainScalar
  | 0, p => some p
  | fuel + 1, p =>
    let c := p.cursor
    if c.seesDocumentMarker || c.sees '#' then some p
    else
      match plainWord inFlow c.rest with
      | none => none
      | some word =>
        let p :=
          if word = [] then p
          else { text := p.text ++ p.gap.text ++ word, gap := .none, cursor := c.skip word.length }
        if p.cursor.seesAny (fun d => isGap d || isBreak d) then
          match readGap indent p.cursor.rest.length p.gap p.cursor with
          | none => none
          | some (g, c) =>
            let p := { p with gap := g, cursor := c }
            if !inFlow && c.column < indent then some p else readPlain inFlow indent fuel p
        else some p

/-! ## Quoted scalars -/

/-- The character with a number, if there is one. -/
def charOf? (n : Nat) : Option Char :=
  if (0xD800 ≤ n && n ≤ 0xDFFF) || 0x10FFFF < n then none else some (Char.ofNat n)

/-- The characters of escapes without digits. -/
def simpleEscape? : Char → Option Char
  | '0' => some '\x00'
  | 'a' => some '\x07'
  | 'b' => some '\x08'
  | 't' => some '\t'
  | '\t' => some '\t'
  | 'n' => some '\n'
  | 'v' => some '\x0b'
  | 'f' => some '\x0c'
  | 'r' => some '\r'
  | 'e' => some '\x1b'
  | ' ' => some ' '
  | '"' => some '"'
  | '/' => some '/'
  | '\\' => some '\\'
  | 'N' => some '\u0085'
  | '_' => some '\u00a0'
  | 'L' => some '\u2028'
  | 'P' => some '\u2029'
  | _ => none

/-- The number of digits of an escape. -/
def escapeDigits? : Char → Option Nat
  | 'x' => some 2
  | 'u' => some 4
  | 'U' => some 8
  | _ => none

/-- The character an escape stands for and the length of the escape without its backslash. -/
def escape? (s : List Char) : Option (Char × Nat) :=
  match s with
  | [] => none
  | c :: r =>
    match escapeDigits? c with
    | some n =>
      if r.length < n then none
      else ((Text.hexNumber? (r.take n)).bind charOf?).map fun d => (d, n + 1)
    | none => (simpleEscape? c).map fun d => (d, 1)

/-- The word of a quoted scalar at the cursor: its text, the place behind it, and whether an escaped
line break ended it. -/
def quotedWord (single : Bool) : Nat → List Char → Cursor → Option (List Char × Cursor × Bool)
  | 0, t, c => some (t, c, false)
  | fuel + 1, t, c =>
    match c.rest with
    | [] => some (t, c, false)
    | d :: r =>
      if endsWord (some d) then some (t, c, false)
      else if single then
        if d == '\'' then
          if r.head? == some '\'' then quotedWord single fuel (t ++ ['\'']) (c.skip 2)
          else some (t, c, false)
        else quotedWord single fuel (t ++ [d]) (c.skip 1)
      else if d == '"' then some (t, c, false)
      else if d == '\\' then
        if r.head?.any isBreak then some (t, (c.skip 1).breakLine.2, true)
        else
          match escape? r with
          | none => none
          | some (e, n) => quotedWord single fuel (t ++ [e]) (c.skip (n + 1))
      else quotedWord single fuel (t ++ [d]) (c.skip 1)

/-- Reads a quoted scalar behind its opening mark. -/
def readQuoted (single : Bool) : Nat → List Char → Cursor → Option (List Char × Cursor)
  | 0, _, _ => none
  | fuel + 1, t, c =>
    if c.seesDocumentMarker || c.rest = [] then none
    else
      match quotedWord single c.rest.length t c with
      | none => none
      | some (t, c, escaped) =>
        if c.sees (if single then '\'' else '"') then some (t, c.skip 1)
        else
          let gap : Gap := if escaped then ⟨[], some [], []⟩ else .none
          match readGap 0 c.rest.length gap c with
          | none => none
          | some (g, c) => readQuoted single fuel (t ++ g.text) c

/-! ## Block scalars -/

/-- What becomes of the line breaks at the end of a block. -/
inductive Chomping where
  /-- All are dropped. -/
  | strip
  /-- The first is kept. -/
  | clip
  /-- All are kept. -/
  | keep
deriving DecidableEq, Repr

/-- The first line of a block. -/
structure BlockHeader where
  chomping : Chomping
  /-- The indentation relative to the surroundings, if it is given. -/
  increment : Option Nat
deriving DecidableEq, Repr

/-- Reads a sign that says what becomes of the line breaks at the end. -/
def chomping? : Option Char → Option Chomping
  | some '+' => some .keep
  | some '-' => some .strip
  | _ => none

/-- Reads a digit that gives the indentation. -/
def increment? (c : Option Char) : Option Nat :=
  match c with
  | some d => if d.isDigit then some (d.toNat - '0'.toNat) else none
  | none => none

/-- Reads the sign and the digit behind the indicator of a block, in either order. -/
def readHeader (c : Cursor) : Option (BlockHeader × Cursor) :=
  let header : BlockHeader × Cursor :=
    match chomping? c.peek with
    | some ch =>
      match increment? (c.peekAt 1) with
      | some n => (⟨ch, some n⟩, c.skip 2)
      | none => (⟨ch, none⟩, c.skip 1)
    | none =>
      match increment? c.peek with
      | some n =>
        match chomping? (c.peekAt 1) with
        | some ch => (⟨ch, some n⟩, c.skip 2)
        | none => (⟨.clip, some n⟩, c.skip 1)
      | none => (⟨.clip, none⟩, c)
  let c := (header.2.skipWhile isGap).skipComment
  if header.1.increment = some 0 || !endsLine c.peek then none
  else some (header.1, c.breakLine.2)

/-- Reads line breaks and the spaces of an indentation up to column `indent`, or of any width while
the indentation is not known. Returns the line breaks, the widest indentation and the place. -/
def readBlockBreaks (indent : Option Nat) : Nat → List Char → Nat → Cursor →
    Option (List Char × Nat × Cursor)
  | 0, b, w, c => some (b, w, c)
  | fuel + 1, b, w, c =>
    let spaces := (c.run (· == ' ')).length
    let c := c.skip (match indent with | some n => min spaces (n - c.column) | none => spaces)
    let w := max w c.column
    if c.sees '\t' && indent.all (c.column < ·) then none
    else if c.seesAny isBreak then
      let (d, c) := c.breakLine
      readBlockBreaks indent fuel (b ++ d) w c
    else some (b, w, c)

/-- A block as read so far. -/
structure Block where
  text : List Char
  /-- The line break after the last line. -/
  last : List Char
  /-- The line breaks after that. -/
  more : List Char
  /-- Whether the last line starts with a blank. -/
  blankStart : Bool
  cursor : Cursor

/-- Reads the lines of a block at column `indent`. -/
def readBlockLines (literal : Bool) (indent : Nat) : Nat → Block → Option Block
  | 0, b => some b
  | fuel + 1, b =>
    let c := b.cursor
    if c.column != indent || c.rest = [] then some b
    else
      let blank := c.seesAny isGap
      let fold := !literal && b.last = ['\n'] && !b.blankStart && !blank
      let joint := if fold then (if b.more = [] then [' '] else []) else b.last
      let line := c.run (!isBreak ·)
      let (last, c) := (c.skip line.length).breakLine
      match readBlockBreaks (some indent) c.rest.length [] 0 c with
      | none => none
      | some (more, _, c) =>
        readBlockLines literal indent fuel
          { text := b.text ++ joint ++ b.more ++ line, last, more, blankStart := blank, cursor := c }

/-- Reads a block scalar behind its indicator; `indent` is the column of the surroundings. -/
def readBlock (literal : Bool) (indent : Int) (c : Cursor) : Option (List Char × Cursor) :=
  match readHeader c with
  | none => none
  | some (header, c) =>
    let given := header.increment.map fun n => (if 0 ≤ indent then indent.toNat else 0) + n
    match readBlockBreaks given c.rest.length [] 0 c with
    | none => none
    | some (breaks, width, c) =>
      let column := given.getD (max (max width (indent + 1).toNat) 1)
      match readBlockLines literal column c.rest.length ⟨[], [], breaks, false, c⟩ with
      | none => none
      | some b =>
        let tail :=
          match header.chomping with
          | .strip => []
          | .clip => b.last
          | .keep => b.last ++ b.more
        some (b.text ++ tail, b.cursor)

end DocScope.Yaml
