import DocScope.Text.Blank

/-!
# Glob patterns

A pattern is a list of pieces. `*` and `?` stand for any text and any byte, slashes included; `**` is
special only where it fills the space between two slashes or an end of the pattern. Classes are
written `[a-z]` or `[!a-z]`, alternatives `{a,b}`, and a backslash takes the next character
literally, but not inside a class.

* `Piece` : what a pattern is made of;
* `parse` : reads a pattern or reports the first fault;
* `Fault.message` : the text of a fault.
-/

namespace DocScope.Glob

/-- A part of a pattern. -/
inductive Piece where
  /-- A character. -/
  | literal (c : Char)
  /-- `?`: one byte. -/
  | anyByte
  /-- `*`: any bytes. -/
  | anyText
  /-- `**/` at the start: nothing, or anything up to a slash. -/
  | someDirectories
  /-- `/**` at the end: a slash and anything after it. -/
  | anythingBelow
  /-- `/**/`: a slash, or two slashes with anything between them. -/
  | directoriesBetween
  /-- A byte of a class, or a byte outside of it. -/
  | oneOf (negated : Bool) (ranges : List (Char × Char))
  /-- One of several patterns. -/
  | alternatives (branches : List (List Piece))

/-- Why a text is no pattern. -/
inductive Fault where
  | unclosedClass
  | invalidRange (low high : Char)
  | unclosedAlternatives
  | unopenedAlternatives
  | danglingEscape
deriving DecidableEq, Repr

/-- The text of a fault. -/
def Fault.message : Fault → String
  | .unclosedClass => "unclosed character class; missing ']'"
  | .invalidRange low high => .ofList
    ("invalid range; '".toList ++ low :: "' > '".toList ++ high :: "'".toList)
  | .unclosedAlternatives =>
    "unclosed alternate group; missing '\x7d' (maybe escape '\x7b' with '[\x7b]'?)"
  | .unopenedAlternatives =>
    "unopened alternate group; missing '\x7b' (maybe escape '\x7d' with '[\x7d]'?)"
  | .danglingEscape => "dangling '\\'"

/-! ## Classes -/

/-- Reads the ranges of a class up to the bracket that closes it. A closing bracket or a hyphen at
the start stands for itself, and so does a hyphen at the end. `inRange` says that a hyphen has made
the last range open. -/
def readRanges : List Char → (first inRange : Bool) → List (Char × Char) →
    Except Fault (List (Char × Char) × List Char)
  | [], _, _, _ => .error .unclosedClass
  | c :: r, first, inRange, ranges =>
    if c = ']' && !first then .ok ((if inRange then ('-', '-') :: ranges else ranges).reverse, r)
    else if c = '-' && !first && !inRange then readRanges r false true ranges
    else
      match inRange, ranges with
      | true, (low, _) :: rs =>
        if c < low then .error (.invalidRange low c) else readRanges r false false ((low, c) :: rs)
      | _, _ => readRanges r false false ((c, c) :: ranges)

/-- Reads a class behind its opening bracket. -/
def readClass (s : List Char) : Except Fault (Piece × List Char) :=
  let (negated, s) :=
    match s with
    | '!' :: r => (true, r)
    | '^' :: r => (true, r)
    | s => (false, s)
  (readRanges s true false []).map fun (ranges, r) => (.oneOf negated ranges, r)

/-! ## Patterns under construction -/

/-- Alternatives that are still open. -/
structure OpenGroup where
  /-- The pieces in front of the alternatives, the last one first. -/
  before : List Piece
  /-- The finished branches, the last one first. -/
  finished : List (List Piece)

/-- A pattern read so far. -/
structure Draft where
  /-- The alternatives around the current branch, the innermost first. -/
  groups : List OpenGroup
  /-- The pieces of the current branch, the last one first. -/
  current : List Piece

namespace Draft

/-- The draft of which nothing has been read. -/
def empty : Draft := ⟨[], []⟩

/-- Whether the current branch is one of several alternatives. -/
def inGroup (d : Draft) : Bool := !d.groups.isEmpty

/-- Adds a piece. -/
def add (d : Draft) (p : Piece) : Draft := { d with current := p :: d.current }

/-- Puts a piece in the place of the last one; what already stands for any directories stays. -/
def widen (d : Draft) (p : Piece) : Draft :=
  match d.current with
  | .someDirectories :: _ => d
  | .anythingBelow :: _ => d
  | _ :: ps => { d with current := p :: ps }
  | [] => d

/-- Opens alternatives. -/
def openGroup (d : Draft) : Draft := ⟨⟨d.current, []⟩ :: d.groups, []⟩

/-- Closes the innermost alternatives. -/
def closeGroup? (d : Draft) : Option Draft :=
  match d.groups with
  | [] => none
  | g :: gs =>
    some ⟨gs, .alternatives (d.current.reverse :: g.finished).reverse :: g.before⟩

/-- A comma: the next branch, or a character outside of alternatives. -/
def comma (d : Draft) : Draft :=
  match d.groups with
  | [] => d.add (.literal ',')
  | g :: gs => ⟨{ g with finished := d.current.reverse :: g.finished } :: gs, []⟩

/-- Adds the pieces of `**`, where `before` stands in front of it and `rest` behind it. Also returns
what is left to read and the character in front of that. -/
def stars (d : Draft) (before : Option Char) (rest : List Char) : Draft × Option Char × List Char :=
  let plain := ((d.add .anyText).add .anyText, some '*', rest)
  if d.current.isEmpty then
    match rest with
    | [] => (d.add .someDirectories, some '*', [])
    | '/' :: r => (d.add .someDirectories, some '/', r)
    | _ => plain
  else if before != some '/' && !(d.inGroup && (before == some ',' || before == some '{')) then plain
  else
    match rest with
    | [] => (d.widen .anythingBelow, some '*', [])
    | '/' :: r => (d.widen .directoriesBetween, some '/', r)
    | c :: _ =>
      if d.inGroup && (c == ',' || c == '}') then (d.widen .anythingBelow, some '*', rest) else plain

end Draft

/-- Reads a pattern; `before` is the character in front of `s`. -/
def read : Nat → (before : Option Char) → (s : List Char) → Draft → Except Fault Draft
  | 0, _, _, d => .ok d
  | fuel + 1, before, s, d =>
    match s with
    | [] => .ok d
    | '?' :: r => read fuel (some '?') r (d.add .anyByte)
    | '*' :: '*' :: r =>
      let (d, before, r) := d.stars before r
      read fuel before r d
    | '*' :: r => read fuel (some '*') r (d.add .anyText)
    | '[' :: r =>
      match readClass r with
      | .error e => .error e
      | .ok (p, r) => read fuel (some ']') r (d.add p)
    | '{' :: r => read fuel (some '{') r d.openGroup
    | '}' :: r =>
      match d.closeGroup? with
      | none => .error .unopenedAlternatives
      | some d => read fuel (some '}') r d
    | ',' :: r => read fuel (some ',') r d.comma
    | ['\\'] => .error .danglingEscape
    | '\\' :: c :: r => read fuel (some c) r (d.add (.literal c))
    | c :: r => read fuel (some c) r (d.add (.literal c))

/-- Reads a pattern. -/
def parse (text : String) : Except Fault (List Piece) :=
  match read text.length none text.toList .empty with
  | .error e => .error e
  | .ok d => if d.inGroup then .error .unclosedAlternatives else .ok d.current.reverse

end DocScope.Glob
