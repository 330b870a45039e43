/-!
# Positions and spans

A position in a source is a line and a column, both from 1; columns count bytes. A span holds the
two byte offsets it was made from and their positions. Offsets past the end of the source have the
position of the end.
-/

namespace DocScope

/-- A line and a column, both from 1. -/
structure Position where
  line : Nat
  column : Nat
deriving DecidableEq, Repr

namespace Position

/-- The number of newlines among `bytes`, plus one. -/
def lineAfter (bytes : List UInt8) : Nat := bytes.count 10 + 1

/-- The number of bytes after the last newline, plus one. -/
def columnAfter (bytes : List UInt8) : Nat := (bytes.reverse.takeWhile (· != 10)).length + 1

/-- The position of a byte offset in a source. -/
def ofOffset (source : List UInt8) (offset : Nat) : Position :=
  let before := source.take offset
  ⟨lineAfter before, columnAfter before⟩

end Position

/-- A piece of a source, from `startByte` up to but not including `endByte`. -/
structure Span where
  startByte : Nat
  endByte : Nat
  start : Position
  stop : Position
deriving DecidableEq, Repr

namespace Span

/-- The span between two byte offsets. -/
def ofOffsets (source : List UInt8) (startByte endByte : Nat) : Span :=
  ⟨startByte, endByte, .ofOffset source startByte, .ofOffset source endByte⟩

/-- A span is shown as the line and column of its start. -/
def text (s : Span) : String := Nat.repr s.start.line ++ ":" ++ Nat.repr s.start.column

end Span

end DocScope
