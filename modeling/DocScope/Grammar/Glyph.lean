import DocScope.Text.Blank
import DocScope.Text.Utf8
import DocScope.Tree.Basic

/-!
# Glyphs, marks and comments

A source is read as a list of glyphs: characters that know how many bytes they take. A byte that
starts no UTF-8 character is a glyph of its own. A mark is a place between two glyphs.
-/

namespace DocScope.Grammar

/-- A character of a source and its width in bytes. -/
structure Glyph where
  char : Char
  width : Nat

/-- The glyphs of a byte sequence; `fuel` bounds their number. -/
def glyphsFrom : Nat → List UInt8 → List Glyph
  | 0, _ => []
  | fuel + 1, bytes =>
    match Text.Utf8.front bytes with
    | .done => []
    | .char c w => ⟨c, w⟩ :: glyphsFrom fuel (bytes.drop w)
    | _ => ⟨'\uFFFD', 1⟩ :: glyphsFrom fuel (bytes.drop 1)

/-- The glyphs of a byte sequence. -/
def glyphs (bytes : List UInt8) : List Glyph := glyphsFrom bytes.length bytes

/-- A place in a source: its byte offset and the glyphs after it. -/
structure Mark where
  offset : Nat
  rest : List Glyph

/-- The mark `n` glyphs further on. -/
def Mark.advance : Nat → Mark → Mark
  | 0, m => m
  | n + 1, ⟨o, g :: r⟩ => Mark.advance n ⟨o + g.width, r⟩
  | _ + 1, ⟨o, []⟩ => ⟨o, []⟩

/-- Line ends, for comments and for automatic semicolons. -/
def isLineEnd (c : Char) : Bool := c == '\n' || c == '\u2028' || c == '\u2029'

/-- The characters between tokens. -/
def isGap (c : Char) : Bool :=
  Text.isBlank c || c == '\uFEFF' || c == '\u2060' || c == '\u200B'

/-- The number of glyphs in front that satisfy `p`. -/
def countWhile (p : Char → Bool) : List Glyph → Nat
  | [] => 0
  | g :: r => if p g.char then countWhile p r + 1 else 0

/-- The number of glyphs up to and including the first `*/`; `none` if there is none. -/
def closingLength? : List Glyph → Option Nat
  | [] => none
  | [_] => none
  | a :: b :: r =>
    if a.char == '*' && b.char == '/' then some 2 else (closingLength? (b :: r)).map (· + 1)

/-- The length of the comment in front, if one stands there. -/
def commentLength? : List Glyph → Option Nat
  | a :: b :: r =>
    if a.char == '/' && b.char == '/' then
      some (countWhile (fun c => !(isLineEnd c || c == '\r')) r + 2)
    else if a.char == '/' && b.char == '*' then (closingLength? r).map (· + 2)
    else none
  | _ => none

/-- The comments from a mark to the next token, each with the mark after it, and the mark of that
token; `fuel` bounds the number of comments. -/
def commentsFrom : Nat → Mark → List (Tree × Mark) × Mark
  | 0, m => ([], m)
  | fuel + 1, m =>
    let m := m.advance (countWhile isGap m.rest)
    match commentLength? m.rest with
    | none => ([], m)
    | some n =>
      let after := m.advance n
      let (cs, next) := commentsFrom fuel after
      ((.node .comment none m.offset after.offset [], after) :: cs, next)

/-- The characters that identifiers are made of, digits included. -/
def isNamePart (c : Char) : Bool :=
  !(c.toNat < 0x20 || isGap c || ":;\x60\"'@#.,|^&<=>+-*/\\%?!~()[]\x7b\x7d".toList.contains c)

/-- The length of a character escape such as `\u0061` in front, or zero. -/
def escapeLength : List Glyph → Nat
  | a :: b :: r =>
    if a.char == '\\' && b.char == 'u' then
      match r with
      | c :: _ =>
        if c.char == '\x7b' then countWhile (· != '\x7d') r + 3 else 6
      | [] => 0
    else 0
  | _ => 0

/-- The length of a word in front: name parts and character escapes; `fuel` bounds the number of
its parts. -/
def wordLengthFrom : Nat → List Glyph → Nat
  | 0, _ => 0
  | _ + 1, [] => 0
  | fuel + 1, g :: r =>
    if isNamePart g.char then wordLengthFrom fuel r + 1
    else
      match escapeLength (g :: r) with
      | 0 => 0
      | n => wordLengthFrom fuel ((g :: r).drop n) + n

/-- The length of a word in front; zero if it would start with a digit. -/
def wordLength (r : List Glyph) : Nat :=
  match r with
  | g :: _ => if g.char.isDigit then 0 else wordLengthFrom r.length r
  | [] => 0

/-- The text of the first `n` glyphs. -/
def textOf (n : Nat) (r : List Glyph) : String := .ofList ((r.take n).map (·.char))

/-- The punctuation marks, longer ones before their beginnings. -/
def punctuators : List String :=
  [">>>=", "...", "===", "!==", "**=", "<<=", ">>=", ">>>", "&&=", "||=", "??=",
   "=>", "==", "!=", "<=", ">=", "&&", "||", "??", "?.", "++", "--", "+=", "-=", "*=", "/=", "%=",
   "&=", "|=", "^=", "<<", ">>", "**",
   "\x7b", "\x7d", "(", ")", "[", "]", ";", ",", "<", ">", "+", "-", "*", "/", "%", "&", "|", "^",
   "!", "~", "?", ":", "=", ".", "@", "#"]

/-- Whether the glyphs in front spell `s`. -/
def startsWith (s : List Char) (r : List Glyph) : Bool :=
  match s, r with
  | [], _ => true
  | _ :: _, [] => false
  | c :: s, g :: r => c == g.char && startsWith s r

/-- The longest punctuation mark in front, or the empty text. A question mark and a point before a
digit are two marks. -/
def punctuatorAt (r : List Glyph) : String :=
  match punctuators.find? (fun p => startsWith p.toList r) with
  | none => ""
  | some "?." =>
    match r with
    | _ :: _ :: d :: _ => if d.char.isDigit then "?" else "?."
    | _ => "?."
  | some p => p

/-- A place between two tokens: the mark after the last token, the comments up to the next token,
the mark of that token and what it starts with. -/
structure Stand where
  here : Mark
  comments : List (Tree × Mark)
  next : Mark
  /-- The longest punctuation mark at `next`. -/
  sign : String
  /-- The word at `next`. -/
  word : String

/-- The stand after a token that ends at the given mark. -/
def Stand.ofMark (m : Mark) : Stand :=
  let (comments, next) := commentsFrom (m.rest.length + 1) m
  { here := m, comments, next, sign := punctuatorAt next.rest
    word := textOf (wordLength next.rest) next.rest }

end DocScope.Grammar
