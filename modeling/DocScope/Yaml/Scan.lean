import DocScope.Yaml.Property
import DocScope.Yaml.Scalar

/-!
# Splitting a YAML text into tokens

A key that is not announced by a question mark is recognised only at the colon behind it. So the
scan remembers where a key may have started, and puts the marks of the key and of its mapping in
front of it afterwards. Outside of brackets such a key has to end on its line, within 1024
characters. Indentation opens and closes block collections.

* `Scan` : the state of a scan;
* `Scan.next` : reads one token;
* `tokens?` : the tokens of a text, `none` if it is not YAML.
-/

namespace DocScope.Yaml

/-- A place where a key may have started. -/
structure PossibleKey where
  /-- The number of tokens in front of it. -/
  position : Nat
  /-- Whether nothing but a key can stand there. -/
  required : Bool
  index : Nat
  line : Nat
  column : Nat
deriving DecidableEq, Repr

/-- The state of a scan. -/
structure Scan where
  cursor : Cursor
  tokens : Array Token
  /-- The column of the innermost block collection; -1 outside of all. -/
  indent : Int
  /-- The columns of the collections around it. -/
  outerIndents : List Int
  /-- Whether a key may start here. -/
  keyAllowed : Bool
  /-- Where the last key may have started, at this level of brackets. -/
  key : Option PossibleKey
  /-- The same for the levels around it, the innermost first. -/
  outerKeys : List (Option PossibleKey)

namespace Scan

/-- The state before the first token. -/
def start (s : List Char) : Scan := ⟨.start s, #[], -1, [], true, none, []⟩

/-- Whether the scan is inside of brackets. -/
def inFlow (s : Scan) : Bool := !s.outerKeys.isEmpty

/-! ## Parts of the state -/

/-- Adds a token and moves on. -/
def push (s : Scan) (t : Token) (c : Cursor) : Scan :=
  { s with tokens := s.tokens.push t, cursor := c }

/-- Puts a token in front of the token at a position. -/
def insertAt (s : Scan) (position : Nat) (t : Token) : Scan :=
  { s with tokens := s.tokens.extract 0 position ++ #[t] ++ s.tokens.extract position s.tokens.size }

/-- Opens a block collection at a column further in, with its mark at a position. -/
def rollIndent (s : Scan) (column position : Nat) (t : Token) : Scan :=
  if s.inFlow || column ≤ s.indent then s
  else { s.insertAt position t with indent := column, outerIndents := s.indent :: s.outerIndents }

/-- Closes the block collections whose columns, from the innermost on, lie behind a column. -/
def closeBlocks (column : Int) : Int → List Int → Nat × Int × List Int
  | indent, [] => (0, indent, [])
  | indent, outer :: outers =>
    if column < indent then
      let (n, indent, outers) := closeBlocks column outer outers
      (n + 1, indent, outers)
    else (0, indent, outer :: outers)

/-- Closes the block collections behind a column. -/
def unrollIndent (s : Scan) (column : Int) : Scan :=
  if s.inFlow then s
  else
    let (n, indent, outers) := closeBlocks column s.indent s.outerIndents
    { s with tokens := s.tokens ++ Array.replicate n .blockEnd, indent, outerIndents := outers }

/-- Forgets where a key may have started; `none` if it had to be one. -/
def dropKey (s : Scan) : Option Scan :=
  match s.key with
  | some k => if k.required then none else some { s with key := none }
  | none => some s

/-- Remembers that a key may start here. -/
def saveKey (s : Scan) : Option Scan :=
  if s.keyAllowed then
    s.dropKey.map fun s =>
      { s with
        key := some
          { position := s.tokens.size, required := !s.inFlow && s.indent == s.cursor.column
            index := s.cursor.index, line := s.cursor.line, column := s.cursor.column } }
  else some s

/-- Whether a key that may have started somewhere cannot end at the cursor any more. -/
def isStale (c : Cursor) (k : PossibleKey) : Bool := k.line < c.line || k.index + 1024 < c.index

/-- Forgets a possible key that is stale; `none` if it had to be one. -/
def refreshKey (c : Cursor) (k : Option PossibleKey) : Option (Option PossibleKey) :=
  match k with
  | some k => if isStale c k then (if k.required then none else some none) else some (some k)
  | none => some none

/-- Forgets all possible keys that are stale. -/
def dropStaleKeys (s : Scan) : Option Scan :=
  match refreshKey s.cursor s.key, s.outerKeys.mapM (refreshKey s.cursor) with
  | some key, some outerKeys => some { s with key, outerKeys }
  | _, _ => none

/-- Skips blanks, comments and line breaks. Behind a line break outside of brackets a key may start;
where a key may start, tabs are no blanks. -/
def skipToToken : Nat → Scan → Scan
  | 0, s => s
  | fuel + 1, s =>
    let c := s.cursor
    let c := if c.column == 0 && c.sees '\ufeff' then c.skip 1 else c
    let c := c.skipWhile fun d => d == ' ' || ((s.inFlow || !s.keyAllowed) && d == '\t')
    let c := c.skipComment
    if c.seesAny isBreak then
      skipToToken fuel
        { s with cursor := c.breakLine.2, keyAllowed := if s.inFlow then s.keyAllowed else true }
    else { s with cursor := c }

/-! ## Tokens -/

/-- The end of everything: all blocks are closed. -/
def finish (s : Scan) : Option Scan := (s.unrollIndent (-1)).dropKey

/-- A directive or a marker between documents. -/
def boundary (s : Scan) (read : Cursor → Option (Token × Cursor)) : Option Scan :=
  match (s.unrollIndent (-1)).dropKey with
  | none => none
  | some s => (read s.cursor).map fun (t, c) => { s with keyAllowed := false }.push t c

/-- An opening bracket. -/
def openBracket (s : Scan) (t : Token) : Option Scan :=
  s.saveKey.map fun s =>
    { s with keyAllowed := true, key := none, outerKeys := s.key :: s.outerKeys }.push t
      (s.cursor.skip 1)

/-- A closing bracket. -/
def closeBracket (s : Scan) (t : Token) : Option Scan :=
  s.dropKey.map fun s =>
    let s :=
      match s.outerKeys with
      | [] => s
      | k :: ks => { s with key := k, outerKeys := ks }
    { s with keyAllowed := false }.push t (s.cursor.skip 1)

/-- A comma. -/
def flowEntry (s : Scan) : Option Scan :=
  s.dropKey.map fun s => { s with keyAllowed := true }.push .flowEntry (s.cursor.skip 1)

/-- A hyphen in front of an item. -/
def blockEntry (s : Scan) : Option Scan :=
  if !s.inFlow && !s.keyAllowed then none
  else
    ((s.rollIndent s.cursor.column s.tokens.size .blockSequenceStart).dropKey).map fun s =>
      { s with keyAllowed := true }.push .blockEntry (s.cursor.skip 1)

/-- A question mark in front of a key. -/
def explicitKey (s : Scan) : Option Scan :=
  if !s.inFlow && !s.keyAllowed then none
  else
    ((s.rollIndent s.cursor.column s.tokens.size .blockMappingStart).dropKey).map fun s =>
      { s with keyAllowed := !s.inFlow }.push .key (s.cursor.skip 1)

/-- A colon in front of a value: the end of a key that started somewhere before, or of a key behind a
question mark. -/
def colon (s : Scan) : Option Scan :=
  match s.key with
  | some k =>
    let s := (s.insertAt k.position .key).rollIndent k.column k.position .blockMappingStart
    some ({ s with key := none, keyAllowed := false }.push .value (s.cursor.skip 1))
  | none =>
    if !s.inFlow && !s.keyAllowed then none
    else
      let s := s.rollIndent s.cursor.column s.tokens.size .blockMappingStart
      some ({ s with keyAllowed := !s.inFlow }.push .value (s.cursor.skip 1))

/-- Content that may be a key. -/
def content (s : Scan) (read : Cursor → Option (Token × Cursor)) : Option Scan :=
  match s.saveKey with
  | none => none
  | some s => (read s.cursor).map fun (t, c) => { s with keyAllowed := false }.push t c

/-- A block scalar. -/
def blockScalar (s : Scan) (literal : Bool) : Option Scan :=
  match s.dropKey with
  | none => none
  | some s =>
    (readBlock literal s.indent (s.cursor.skip 1)).map fun (t, c) =>
      { s with keyAllowed := true }.push (.scalar t (if literal then .literal else .folded)) c

/-- A quoted scalar. -/
def quotedScalar (s : Scan) (single : Bool) : Option Scan :=
  s.content fun c =>
    (readQuoted single (c.rest.length + 1) [] (c.skip 1)).map fun (t, c) =>
      (.scalar t (if single then .singleQuoted else .doubleQuoted), c)

/-- A plain scalar. A key may start behind it if it is followed by a line break. -/
def plainScalar (s : Scan) : Option Scan :=
  match s.saveKey with
  | none => none
  | some s =>
    (readPlain s.inFlow (s.indent + 1).toNat s.cursor.rest.length ⟨[], .none, s.cursor⟩).map fun p =>
      { s with keyAllowed := p.gap.isBroken }.push (.scalar p.text .plain) p.cursor

/-- Whether a plain scalar may start with a character, followed by another. -/
def startsPlain (inFlow : Bool) (c : Char) (next : Option Char) : Bool :=
  if c == '-' then !next.any isGap
  else if c == '?' || c == ':' then !inFlow && !endsWord next
  else !isFlowIndicator c && !"#&*!|>'\"%@\x60".contains c

/-- Reads the token that starts with a character at the cursor. -/
def token (s : Scan) (d : Char) : Option Scan :=
  let c := s.cursor
  let spaced := endsWord (c.peekAt 1)
  if c.column == 0 && d == '%' then s.boundary fun c => readDirective (c.skip 1)
  else if c.seesMarker '-' then s.boundary fun c => some (.documentStart, c.skip 3)
  else if c.seesMarker '.' then s.boundary fun c => some (.documentEnd, c.skip 3)
  else if d == '[' then s.openBracket .flowSequenceStart
  else if d == '{' then s.openBracket .flowMappingStart
  else if d == ']' then s.closeBracket .flowSequenceEnd
  else if d == '}' then s.closeBracket .flowMappingEnd
  else if d == ',' then s.flowEntry
  else if d == '-' && spaced then s.blockEntry
  else if d == '?' && (s.inFlow || spaced) then s.explicitKey
  else if d == ':' && (s.inFlow || spaced) then s.colon
  else if d == '*' then s.content fun c => (readName (c.skip 1)).map fun (n, c) => (.alias n, c)
  else if d == '&' then s.content fun c => (readName (c.skip 1)).map fun (n, c) => (.anchor n, c)
  else if d == '!' then s.content (readTag s.inFlow)
  else if d == '|' && !s.inFlow then s.blockScalar true
  else if d == '>' && !s.inFlow then s.blockScalar false
  else if d == '\'' then s.quotedScalar true
  else if d == '"' then s.quotedScalar false
  else if startsPlain s.inFlow d (c.peekAt 1) && !endsWord (some d) then s.plainScalar
  else none

/-- Reads tokens up to the end of the text. -/
def toEnd : Nat → Scan → Option Scan
  | 0, s => s.finish
  | fuel + 1, s =>
    match (skipToToken (s.cursor.rest.length + 1) s).dropStaleKeys with
    | none => none
    | some s =>
      let s := s.unrollIndent s.cursor.column
      match s.cursor.peek with
      | none => s.finish
      | some d =>
        match s.token d with
        | none => none
        | some s => toEnd fuel s

end Scan

/-- The tokens of a text; `none` if it is not YAML. -/
def tokens? (s : List Char) : Option (List Token) :=
  if s.all isAllowed then (Scan.toEnd (s.length + 1) (.start s)).map (·.tokens.toList) else none

end DocScope.Yaml
