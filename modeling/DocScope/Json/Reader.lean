import DocScope.Json.Basic
import DocScope.Text.Hex

/-!
# Reading JSON

`Json.parse?` reads a text that holds exactly one JSON value, with blanks around it. There are no
comments, no commas at the end of a list, and no control characters inside a string.
-/

namespace DocScope.Json

/-- The blanks between tokens. -/
def isSpace (c : Char) : Bool := c == ' ' || c == '\t' || c == '\n' || c == '\r'

/-- Skips blanks. -/
def skipSpace (s : List Char) : List Char := s.dropWhile isSpace

/-- Reads four hexadecimal digits. -/
def hex4? : List Char → Option (Nat × List Char)
  | a :: b :: c :: d :: r => (Text.hexNumber? [a, b, c, d]).map (·, r)
  | _ => none

/-- Whether a number is the first half of a pair. -/
def isHighHalf (n : Nat) : Bool := 0xD800 ≤ n && n ≤ 0xDBFF

/-- Whether a number is the second half of a pair. -/
def isLowHalf (n : Nat) : Bool := 0xDC00 ≤ n && n ≤ 0xDFFF

/-- Reads what follows `\u`; the character is `none` for half of a pair. -/
def unicodeEscape? (s : List Char) : Option (Option Char × List Char) :=
  match hex4? s with
  | none => none
  | some (n, r) =>
    if isHighHalf n then
      match r with
      | '\\' :: 'u' :: t =>
        match hex4? t with
        | none => none
        | some (m, t) =>
          if isLowHalf m then
            some (some (Char.ofNat (0x10000 + (n - 0xD800) * 0x400 + (m - 0xDC00))), t)
          else some (none, r)
      | _ => some (none, r)
    else if isLowHalf n then some (none, r)
    else some (some (Char.ofNat n), r)

/-- The character of a simple escape. -/
def simpleEscape? : Char → Option Char
  | '"' => some '"'
  | '\\' => some '\\'
  | '/' => some '/'
  | 'b' => some '\x08'
  | 'f' => some '\x0c'
  | 'n' => some '\n'
  | 'r' => some '\r'
  | 't' => some '\t'
  | _ => none

/-- Reads a string up to its closing quotation mark; a character is `none` for half of a pair.
`fuel` bounds the number of characters. -/
def stringRest? : Nat → List Char → Option (List (Option Char) × List Char)
  | 0, _ => none
  | _ + 1, [] => none
  | fuel + 1, c :: r =>
    if c == '"' then some ([], r)
    else if c.toNat < 0x20 then none
    else if c == '\\' then
      match r with
      | 'u' :: r =>
        match unicodeEscape? r with
        | none => none
        | some (c, r) => (stringRest? fuel r).map fun (cs, r) => (c :: cs, r)
      | e :: r =>
        match simpleEscape? e with
        | none => none
        | some c => (stringRest? fuel r).map fun (cs, r) => (some c :: cs, r)
      | [] => none
    else (stringRest? fuel r).map fun (cs, r) => (some c :: cs, r)

/-- The text of a string, if no half of a pair is left alone in it. -/
def wholeText? : List (Option Char) → Option (List Char)
  | [] => some []
  | none :: _ => none
  | some c :: r => (wholeText? r).map (c :: ·)

/-- Skips at least one digit. -/
def digits1? (s : List Char) : Option (List Char) :=
  match s with
  | c :: r => if c.isDigit then some (r.dropWhile Char.isDigit) else none
  | [] => none

/-- Skips the whole part of a number: no digit may follow a leading zero. -/
def wholePart? (s : List Char) : Option (List Char) :=
  match s with
  | '0' :: r => if r.head?.any Char.isDigit then none else some r
  | s => digits1? s

/-- Skips the fraction of a number. -/
def fraction? (s : List Char) : Option (List Char) :=
  match s with
  | '.' :: r => digits1? r
  | s => some s

/-- Skips the exponent of a number. -/
def exponent? (s : List Char) : Option (List Char) :=
  match s with
  | e :: r =>
    if e == 'e' || e == 'E' then
      match r with
      | '+' :: r => digits1? r
      | '-' :: r => digits1? r
      | r => digits1? r
    else some s
  | [] => some []

/-- Skips a number. -/
def number? (s : List Char) : Option (List Char) :=
  ((wholePart? (if s.head? = some '-' then s.drop 1 else s)).bind fraction?).bind exponent?

mutual

/-- Reads a value; `fuel` bounds the nesting and the number of items. -/
def value? : Nat → List Char → Option (Json × List Char)
  | 0, _ => none
  | fuel + 1, s =>
    match skipSpace s with
    | 'n' :: 'u' :: 'l' :: 'l' :: r => some (.null, r)
    | 't' :: 'r' :: 'u' :: 'e' :: r => some (.bool true, r)
    | 'f' :: 'a' :: 'l' :: 's' :: 'e' :: r => some (.bool false, r)
    | '"' :: r =>
      (stringRest? (r.length + 1) r).map fun (cs, r) =>
        match wholeText? cs with
        | some t => (.string (.ofList t), r)
        | none => (.brokenString, r)
    | '[' :: r =>
      match skipSpace r with
      | ']' :: r => some (.array [], r)
      | r => (items? fuel r).map fun (vs, r) => (.array vs, r)
    | '\x7b' :: r =>
      match skipSpace r with
      | '\x7d' :: r => some (.object [], r)
      | r => (fields? fuel r).map fun (fs, r) => (.object fs, r)
    | s =>
      (number? s).map fun r => (.number (.ofList (s.take (s.length - r.length))), r)

/-- Reads the items of an array that has one, and its closing bracket. -/
def items? : Nat → List Char → Option (List Json × List Char)
  | 0, _ => none
  | fuel + 1, s =>
    match value? fuel s with
    | none => none
    | some (v, r) =>
      match skipSpace r with
      | ',' :: r => (items? fuel r).map fun (vs, r) => (v :: vs, r)
      | ']' :: r => some ([v], r)
      | _ => none

/-- Reads the fields of an object that has one, and its closing brace. -/
def fields? : Nat → List Char → Option (List (String × Json) × List Char)
  | 0, _ => none
  | fuel + 1, s =>
    match skipSpace s with
    | '"' :: r =>
      match stringRest? (r.length + 1) r with
      | none => none
      | some (cs, r) =>
        match wholeText? cs, skipSpace r with
        | some k, ':' :: r =>
          match value? fuel r with
          | none => none
          | some (v, r) =>
            match skipSpace r with
            | ',' :: r => (fields? fuel r).map fun (fs, r) => ((.ofList k, v) :: fs, r)
            | '\x7d' :: r => some ([(.ofList k, v)], r)
            | _ => none
        | _, _ => none
    | _ => none

end

/-- The value a text holds. -/
def parse? (text : String) : Option Json :=
  let s := text.toList
  match value? (2 * s.length + 2) s with
  | some (v, r) => if skipSpace r = [] then some v else none
  | none => none

end DocScope.Json
