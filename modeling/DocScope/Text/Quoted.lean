import DocScope.Text.Unprinted

/-!
# Texts in quotation marks

A text is quoted for a message: the quotation mark and the backslash get a backslash in front, and
what cannot be printed is written as an escape.
-/

namespace DocScope.Text

/-- A character inside of quotation marks. -/
def quotedChar (c : Char) : List Char :=
  match c with
  | '"' => ['\\', '"']
  | '\\' => ['\\', '\\']
  | '\n' => ['\\', 'n']
  | '\r' => ['\\', 'r']
  | '\t' => ['\\', 't']
  | '\x00' => ['\\', '0']
  | c =>
    if isUnprinted c then '\\' :: 'u' :: '{' :: Nat.toDigits 16 c.toNat ++ ['}'] else [c]

/-- A text in quotation marks. -/
def quoted (s : String) : String := .ofList ('"' :: s.toList.flatMap quotedChar ++ ['"'])

/-- A path in quotation marks: apostrophes get a backslash as well. -/
def quotedPath (s : String) : String :=
  .ofList ('"' :: s.toList.flatMap (fun c => if c = '\'' then ['\\', c] else quotedChar c) ++ ['"'])

end DocScope.Text
