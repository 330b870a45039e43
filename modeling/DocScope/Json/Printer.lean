import DocScope.Json.Basic

/-!
# Printing JSON

`Json.pretty` prints a value over several lines: every item and every field stands on a line of its
own, indented by two spaces per level; an empty list or object stands on one line.
-/

namespace DocScope.Json

/-- The digit for a number below 16. -/
def hexDigit (n : Nat) : Char := (Nat.digitChar n)

/-- A character inside a string. -/
def escape (c : Char) : List Char :=
  if c == '"' then ['\\', '"']
  else if c == '\\' then ['\\', '\\']
  else if c == '\x08' then ['\\', 'b']
  else if c == '\x0c' then ['\\', 'f']
  else if c == '\n' then ['\\', 'n']
  else if c == '\r' then ['\\', 'r']
  else if c == '\t' then ['\\', 't']
  else if c.toNat < 0x20 then
    ['\\', 'u', '0', '0', hexDigit (c.toNat / 16), hexDigit (c.toNat % 16)]
  else [c]

/-- A text in quotation marks. -/
def quote (s : String) : List Char := '"' :: s.toList.flatMap escape ++ ['"']

/-- A line break and the indentation of a level. -/
def newline (level : Nat) : List Char := '\n' :: List.replicate (2 * level) ' '

mutual

/-- Prints a value whose first line is already indented. -/
def prettyAt (level : Nat) : Json → List Char
  | .null => "null".toList
  | .bool b => if b then "true".toList else "false".toList
  | .number s => s.toList
  | .string s => quote s
  | .brokenString => quote "\uFFFD"
  | .array [] => "[]".toList
  | .array (v :: vs) => '[' :: prettyItems (level + 1) (v :: vs) ++ newline level ++ [']']
  | .object [] => "\x7b\x7d".toList
  | .object (f :: fs) => '\x7b' :: prettyFields (level + 1) (f :: fs) ++ newline level ++ ['\x7d']

/-- Prints items, each on its own line. -/
def prettyItems (level : Nat) : List Json → List Char
  | [] => []
  | [v] => newline level ++ prettyAt level v
  | v :: vs => newline level ++ prettyAt level v ++ ',' :: prettyItems level vs

/-- Prints fields, each on its own line. -/
def prettyFields (level : Nat) : List (String × Json) → List Char
  | [] => []
  | [(k, v)] => newline level ++ quote k ++ ": ".toList ++ prettyAt level v
  | (k, v) :: fs =>
    newline level ++ quote k ++ ": ".toList ++ prettyAt level v ++ ',' :: prettyFields level fs

end

/-- Prints a value over several lines. -/
def pretty (v : Json) : String := .ofList (prettyAt 0 v)

end DocScope.Json
