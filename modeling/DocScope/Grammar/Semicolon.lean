import DocScope.Grammar.Glyph

/-!
# Automatic semicolons

A statement may end without a semicolon where a line break, a closing brace or the end of the
source follows. `Semicolon.scan` decides this from the text after the last token alone, and the two
dialects look differently at comments:

* plain scripts look through comments on the same line, and let a comment that ends its line stay
  outside the statement unless an operator could still continue the statement;
* typed scripts do not look past a comment on the same line, so that the comment is taken into the
  statement first.

`operand` says whether a binary operator could follow.
-/

namespace DocScope.Grammar.Semicolon

/-- The blank characters that are skipped. -/
def isSpace (c : Char) : Bool :=
  c == ' ' || c == '\t' || c == '\n' || c == '\x0b' || c == '\x0c' || c == '\r'

/-- What skipping blanks and comments came to. -/
inductive Skipped where
  /-- Something that is neither blank nor comment follows. -/
  | done
  /-- A block comment on one line was skipped. -/
  | sameLine
  /-- A slash that starts no comment follows. -/
  | slash
deriving DecidableEq

/-- Skips the rest of a block comment; tells whether a line ended inside. -/
def skipBlock (ended : Bool) : List Glyph → Bool × List Glyph
  | [] => (ended, [])
  | [_] => (ended, [])
  | a :: b :: r =>
    if a.char == '*' && b.char == '/' then (ended, r)
    else skipBlock (ended || isLineEnd a.char) (b :: r)

/-- Skips blanks and comments. Unless `all` is set it stops after a block comment that no slash
follows. -/
def skip (all : Bool) : Nat → Bool → List Glyph → Skipped × List Glyph
  | 0, _, r => (.done, r)
  | fuel + 1, ended, r =>
    match r.dropWhile (isSpace ·.char) with
    | a :: b :: r =>
      if a.char == '/' then
        if b.char == '/' then skip all fuel ended (r.dropWhile (!isLineEnd ·.char))
        else if b.char == '*' then
          let (ended, r) := skipBlock ended r
          match r with
          | c :: _ =>
            if c.char != '/' && !all then (if ended then .done else .sameLine, r)
            else skip all fuel ended r
          | [] => if all then (.done, []) else (if ended then .done else .sameLine, [])
        else (.slash, b :: r)
      else (.done, a :: b :: r)
    | [a] => if a.char == '/' then (.slash, []) else (.done, [a])
    | [] => (.done, [])

/-- The first character, if any. -/
def peek (r : List Glyph) : Option Char := r.head?.map (·.char)

/-- Whether `in` or `instanceof` stands in front. -/
def startsOperatorWord (r : List Glyph) : Bool :=
  let letter (r : List Glyph) := (peek r).any Char.isAlpha
  startsWith "in".toList r &&
    (!letter (r.drop 2) || startsWith "instanceof".toList r && !letter (r.drop 10))

/-- Whether a statement can end before what follows the line break. `closers` are the characters
that continue the statement. -/
def endsBefore (closers : List Char) (r : List Glyph) : Bool :=
  match r with
  | [] => true
  | g :: t =>
    if closers.contains g.char then false
    else match g.char with
      | '+' => peek t == some '+'
      | '-' => peek t == some '-'
      | '!' => peek t != some '='
      | 'i' => !startsOperatorWord r
      | _ => true

/-- After the line break in a plain script. -/
def endsScriptLine (r : List Glyph) : Bool :=
  match skip true r.length false r with
  | (.slash, _) => false
  | (_, r) =>
    match r with
    | g :: t =>
      if g.char == '.' then (peek t).any Char.isDigit
      else endsBefore "\x60,:;*%><=[(?^|&/".toList (g :: t)
    | [] => true

/-- Whether a plain script gets a semicolon in front of `r`. -/
def scanScript (operand : Bool) : Nat → List Glyph → Bool
  | 0, _ => false
  | _ + 1, [] => true
  | fuel + 1, g :: r =>
    let (found, r) :=
      if g.char == '/' then skip false (r.length + 1) false (g :: r) else (.done, g :: r)
    if found == .slash then false
    else if g.char == '/' && found == .done && !operand &&
        peek r != some ',' && peek r != some '=' then true
    else
      match r with
      | [] => false
      | h :: t =>
        if h.char == '\x7d' then true
        else if isLineEnd h.char then endsScriptLine t
        else if isSpace h.char then scanScript operand fuel t
        else false

/-- After the line break in a typed script. -/
def endsTypedLine (operand : Bool) (r : List Glyph) : Bool :=
  match skip true r.length false r with
  | (.slash, _) => false
  | (_, r) =>
    if operand && (peek r == some '(' || peek r == some '[') then false
    else endsBefore "\x60,.;*%><=?^|&/:".toList r

/-- Whether a typed script gets a semicolon in front of `r`. -/
def scanTyped (operand : Bool) : List Glyph → Bool
  | [] => true
  | g :: r =>
    if g.char == '\x7d' then
      if peek (r.dropWhile (isSpace ·.char)) == some ':' then operand else true
    else if !isSpace g.char then false
    else if g.char == '\n' then endsTypedLine operand r
    else scanTyped operand r

/-- Whether a statement gets a semicolon in front of `r`. -/
def scan (typed operand : Bool) (r : List Glyph) : Bool :=
  if typed then scanTyped operand r else scanScript operand (r.length + 1) r

/-- Looks for an automatic semicolon at a mark and after each of the comments that follow it. Yields
the comments in front of the semicolon and the mark it stands at, with the comments after it. -/
def find? (typed operand : Bool) (m : Mark) :
    List (Tree × Mark) → Option (List Tree × Mark × List (Tree × Mark))
  | [] => if scan typed operand m.rest then some ([], m, []) else none
  | (c, after) :: cs =>
    if scan typed operand m.rest then some ([], m, (c, after) :: cs)
    else (find? typed operand after cs).map fun (taken, r) => (c :: taken, r)

end DocScope.Grammar.Semicolon
