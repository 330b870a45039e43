import DocScope.Text.Hex
import DocScope.Text.Utf8
import DocScope.Yaml.Cursor
import DocScope.Yaml.Token

/-!
# Anchors, tags and directives of YAML

What stands in front of the content of a node, and the lines with a percent sign in front of a
document. The functions return a token and the place behind it; `none` is a fault.
-/

namespace DocScope.Yaml

/-! ## Anchors and aliases -/

/-- Reads the name of an anchor or an alias. -/
def readName (c : Cursor) : Option (List Char × Cursor) :=
  let name := c.run isNameChar
  let c := c.skip name.length
  if name ≠ [] && (endsWord c.peek || c.seesAny ("?:,]\x7d%@\x60".contains ·)) then some (name, c)
  else none

/-! ## Tags -/

/-- The characters of a tag besides letters and digits, outside of angle brackets. -/
def isTagChar (c : Char) : Bool := isNameChar c || ";/?:@&=+$.%!~*'()".contains c

/-- The characters of a tag in angle brackets. -/
def isVerbatimTagChar (c : Char) : Bool := isTagChar c || c == ',' || c == '[' || c == ']'

/-- The bytes that `%` and two digits stand for, up to the first other text. -/
def escapedBytes : List Char → List UInt8
  | '%' :: a :: b :: r =>
    match Text.hexNumber? [a, b] with
    | some n => UInt8.ofNat n :: escapedBytes r
    | none => []
  | _ => []

/-- Replaces the escapes of a tag by the characters they stand for. -/
def unescapeTag : Nat → List Char → Option (List Char)
  | 0, s => some s
  | fuel + 1, s =>
    match s with
    | [] => some []
    | '%' :: _ =>
      match Text.Utf8.front (escapedBytes s) with
      | .char d width => (unescapeTag fuel (s.drop (3 * width))).map (d :: ·)
      | _ => none
    | d :: r => (unescapeTag fuel r).map (d :: ·)

/-- Reads the characters of a tag behind `head`, which has been read already. -/
def readTagText (p : Char → Bool) (head : List Char) (c : Cursor) : Option (List Char × Cursor) :=
  let text := c.run p
  if head = [] && text = [] then none
  else (unescapeTag text.length text).map fun t => (head.tail ++ t, c.skip text.length)

/-- Reads a handle: an exclamation mark and a name, and an exclamation mark after it if there is
one. -/
def readHandle (c : Cursor) : Option (List Char × Cursor) :=
  if c.sees '!' then
    let name := (c.skip 1).run isNameChar
    let c := c.skip (name.length + 1)
    if c.sees '!' then some ('!' :: name ++ ['!'], c.skip 1) else some ('!' :: name, c)
  else none

/-- Whether a handle is closed by an exclamation mark. -/
def isClosedHandle (h : List Char) : Bool := 1 < h.length && h.getLast? == some '!'

/-- Reads the handle and the rest of a tag. -/
def readTagParts (c : Cursor) : Option (Token × Cursor) :=
  if c.peekAt 1 == some '<' then
    match readTagText isVerbatimTagChar [] (c.skip 2) with
    | some (t, c) => if c.sees '>' then some (.tag [] t, c.skip 1) else none
    | none => none
  else
    match readHandle c with
    | none => none
    | some (h, c) =>
      if isClosedHandle h then (readTagText isTagChar [] c).map fun (t, c) => (.tag h t, c)
      else
        match readTagText isTagChar h c with
        | none => none
        | some (t, c) => if t = [] then some (.tag [] ['!'], c) else some (.tag ['!'] t, c)

/-- Reads a tag. -/
def readTag (inFlow : Bool) (c : Cursor) : Option (Token × Cursor) :=
  match readTagParts c with
  | none => none
  | some (t, c) => if endsWord c.peek || (inFlow && c.sees ',') then some (t, c) else none

/-! ## Directives -/

/-- The number written by decimal digits. -/
def decimal (ds : List Char) : Nat := ds.foldl (fun n d => n * 10 + (d.toNat - '0'.toNat)) 0

/-- Reads a number of at most nine digits. -/
def readNumber (c : Cursor) : Option (Nat × Cursor) :=
  let ds := c.run Char.isDigit
  if ds = [] || 9 < ds.length then none else some (decimal ds, c.skip ds.length)

/-- Reads the number of a version behind `%YAML`. -/
def readVersion (c : Cursor) : Option (Token × Cursor) :=
  match readNumber (c.skipWhile isGap) with
  | none => none
  | some (major, c) =>
    if c.sees '.' then (readNumber (c.skip 1)).map fun (minor, c) => (.version major minor, c)
    else none

/-- Reads a handle and its meaning behind `%TAG`. -/
def readHandleMeaning (c : Cursor) : Option (Token × Cursor) :=
  match readHandle (c.skipWhile isGap) with
  | none => none
  | some (h, c) =>
    if (isClosedHandle h || h = ['!']) && c.seesAny isGap then
      match readTagText isVerbatimTagChar [] (c.skipWhile isGap) with
      | some (t, c) => if endsWord c.peek then some (.handle h t, c) else none
      | none => none
    else none

/-- Reads a directive behind its percent sign, with the end of its line. -/
def readDirective (c : Cursor) : Option (Token × Cursor) :=
  let name := c.run isNameChar
  let c := c.skip name.length
  let directive :=
    if !endsWord c.peek then none
    else if name = "YAML".toList then readVersion c
    else if name = "TAG".toList then readHandleMeaning c
    else none
  match directive with
  | none => none
  | some (t, c) =>
    let c := (c.skipWhile isGap).skipComment
    if endsLine c.peek then some (t, c.breakLine.2) else none

end DocScope.Yaml
