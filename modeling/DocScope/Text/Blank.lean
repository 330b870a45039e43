/-!
# Blank characters and trimming

Text is handled as a list of characters. A character is blank when it has the Unicode property
White_Space; trimming removes blank characters from one end or from both.

* `isBlank` : the White_Space property;
* `dropEnd` : `List.dropWhile` from the other end;
* `trimStart`, `trimEnd`, `trim` : removal of blank characters.
-/

namespace DocScope.Text

/-- The characters with the Unicode property White_Space. -/
def isBlank (c : Char) : Bool :=
  let n := c.toNat
  (9 ≤ n && n ≤ 13) || n == 0x20 || n == 0x85 || n == 0xA0 || n == 0x1680 ||
    (0x2000 ≤ n && n ≤ 0x200A) || n == 0x2028 || n == 0x2029 || n == 0x202F || n == 0x205F ||
    n == 0x3000

/-- Removes the longest run at the end of `s` whose members all satisfy `p`. -/
def dropEnd {α : Type} (p : α → Bool) (s : List α) : List α :=
  (s.reverse.dropWhile p).reverse

/-- Removes blank characters from the start. -/
def trimStart (s : List Char) : List Char := s.dropWhile isBlank

/-- Removes blank characters from the end. -/
def trimEnd (s : List Char) : List Char := dropEnd isBlank s

/-- Removes blank characters from both ends. -/
def trim (s : List Char) : List Char := trimEnd (trimStart s)

/-- Whether a text has no character but blank ones. -/
def allBlank (s : List Char) : Bool := s.all isBlank

/-- `s` without `p` in front, if `s` starts with `p`. -/
def stripStart? (p s : List Char) : Option (List Char) := p.isPrefixOf? s

/-- `s` without `p` at its end, if `s` ends with `p`. -/
def stripEnd? (p s : List Char) : Option (List Char) := p.isSuffixOf? s

/-- `trim` on strings. -/
def trimString (s : String) : String := .ofList (trim s.toList)

/-- Whether `part` occurs in `s` as a contiguous piece. -/
def occursIn (part : List Char) : List Char → Bool
  | [] => part.isEmpty
  | c :: cs => part.isPrefixOf (c :: cs) || occursIn part cs

/-- ASCII letters in lower case, all other characters as they are. -/
def asciiLower (s : List Char) : List Char := s.map Char.toLower

end DocScope.Text
