import DocScope.Diff.Ascending
import DocScope.Text.Lines

/-!
# Hunk headers and added lines

A unified diff announces every hunk by a header `@@ -a,b +c,d @@`: on the new side the hunk has `d`
lines from line `c` on, one if `d` is left out. Line numbers are unsigned 64-bit numbers, and a
range whose end is no such number makes reading the diff impossible.
-/

namespace DocScope

/-- The numbers of lines are below this. -/
def lineLimit : Nat := 0x10000000000000000

/-- The new side of one hunk. -/
structure HunkRange where
  start : Nat
  count : Nat
deriving DecidableEq, Repr

namespace HunkRange

/-- Whether the end of the range is too large for a line number. -/
def overflows (h : HunkRange) : Bool := lineLimit ≤ h.start + h.count

/-- The lines of a hunk. -/
def lines (h : HunkRange) : List Nat := List.range' h.start h.count

/-- The number that a text of decimal digits stands for. -/
def decimal (ds : List Char) : Nat := ds.foldl (fun n c => 10 * n + (c.toNat - '0'.toNat)) 0

/-- Reads a decimal line number; one that is too large is none. -/
def number? (s : List Char) : Option (Nat × List Char) :=
  let ds := s.takeWhile Char.isDigit
  if ds = [] || lineLimit ≤ decimal ds then none else some (decimal ds, s.dropWhile Char.isDigit)

/-- Reads a count after a comma; without a comma it is one. -/
def count? (s : List Char) : Option (Nat × List Char) :=
  match s with
  | ',' :: r => number? r
  | r => some (1, r)

/-- Reads a hunk header. -/
def read? (line : List Char) : Option HunkRange :=
  match Text.stripStart? ['@', '@', ' '] line with
  | none => none
  | some r =>
    match r.dropWhile (fun c => c != '+' && c != '@') with
    | '+' :: r =>
      match number? r with
      | none => none
      | some (start, r) =>
        match count? r with
        | none => none
        | some (count, r) => if [' ', '@', '@'].isPrefixOf r then some ⟨start, count⟩ else none
    | _ => none

/-- The range a hunk header announces. -/
def parse? (line : String) : Option HunkRange := read? line.toList

/-- The ranges of all hunk headers of a diff. -/
def ofDiff (diff : List Char) : List HunkRange :=
  ((Text.lines diff).filter (['@', '@'].isPrefixOf ·)).filterMap read?

end HunkRange

/-- A set of line numbers, ascending. -/
structure AddedLines where
  lines : List Nat
deriving DecidableEq, Repr

namespace AddedLines

/-- The empty set. -/
def empty : AddedLines := ⟨[]⟩

/-- The set of the given lines. -/
def ofList (l : List Nat) : AddedLines := ⟨ascending (· ≤ ·) l⟩

/-- Whether a line is in the set. -/
def contains (s : AddedLines) (line : Nat) : Bool := s.lines.contains line

/-- The number of lines. -/
def size (s : AddedLines) : Nat := s.lines.length

/-- The lines that a diff adds; `none` when the range of a hunk is too large. -/
def ofDiff? (diff : String) : Option AddedLines :=
  let ranges := HunkRange.ofDiff diff.toList
  if ranges.any (·.overflows) then none else some (ofList (ranges.flatMap (·.lines)))

end AddedLines

end DocScope
