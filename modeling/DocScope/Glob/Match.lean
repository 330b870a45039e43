import DocScope.Glob.Pattern
import DocScope.Text.Utf8

/-!
# Matching paths

A pattern is matched against the bytes of a path. `Piece.rests` gives what can be left of the bytes
when a piece has taken its part of them; a pattern matches when all its pieces together can leave
nothing.

A path that ends in a point has no file name. A pattern that ends in a point therefore matches only
when it can be decided without the file name: when it is a plain text, or a plain text with
anything in front of it. See `needsFileName`.
-/

namespace DocScope.Glob

/-- What can be left when any number of bytes is taken. -/
def tails : List UInt8 → List (List UInt8)
  | [] => [[]]
  | b :: bs => (b :: bs) :: tails bs

/-- The byte of a slash. -/
def slash : UInt8 := 0x2F

/-- What can be left when anything up to some slash is taken. -/
def afterSlash : List UInt8 → List (List UInt8)
  | [] => []
  | b :: bs => if b = slash then bs :: afterSlash bs else afterSlash bs

/-- The bytes of a character. -/
def bytesOfChar (c : Char) : List UInt8 := Text.Utf8.bytesOf (.ofList [c])

/-- The ranges of bytes that a range of characters stands for: the hyphen joins the last byte of the
first character and the first byte of the second one. -/
def byteRanges : Char × Char → List (UInt8 × UInt8)
  | (low, high) =>
    let single (b : UInt8) := (b, b)
    let l := bytesOfChar low
    let h := bytesOfChar high
    if low = high then l.map single
    else l.dropLast.map single ++ [(l.getLastD 0, h.headD 0)] ++ h.tail.map single

/-- Whether a byte is in one of the ranges. -/
def inRanges (ranges : List (Char × Char)) (b : UInt8) : Bool :=
  (ranges.flatMap byteRanges).any fun (l, h) => l ≤ b && b ≤ h

mutual

/-- Whether a piece is a list of alternatives in which nothing is written. -/
def Piece.isVoid : Piece → Bool
  | .alternatives bs => areVoid bs
  | _ => false

/-- Whether nothing is written in a list of pieces. -/
def isVoidList : List Piece → Bool
  | [] => true
  | p :: ps => p.isVoid && isVoidList ps

/-- Whether nothing is written in any of several branches. -/
def areVoid : List (List Piece) → Bool
  | [] => true
  | b :: bs => isVoidList b && areVoid bs

end

mutual

/-- What can be left of some bytes behind a piece. -/
def Piece.rests : Piece → List UInt8 → List (List UInt8)
  | .literal c, s => ((bytesOfChar c).isPrefixOf? s).toList
  | .anyByte, s => s.tail?.toList
  | .anyText, s => tails s
  | .someDirectories, s => s :: afterSlash s
  | .anythingBelow, s =>
    match s with
    | [] => []
    | b :: bs => if b = slash then tails bs else []
  | .directoriesBetween, s =>
    match s with
    | [] => []
    | b :: bs => if b = slash then bs :: afterSlash bs else []
  | .oneOf negated ranges, s =>
    match s with
    | [] => []
    | b :: bs => if inRanges ranges b != negated then [bs] else []
  | .alternatives branches, s => if areVoid branches then [s] else restsOfAny branches s

/-- What can be left of any of several rests behind all pieces of a list. -/
def restsOfAll : List Piece → List (List UInt8) → List (List UInt8)
  | [], ss => ss
  | p :: ps, ss => restsOfAll ps (ss.flatMap p.rests).eraseDups

/-- What can be left of some bytes behind one of several branches. A branch in which nothing is
written does not count. -/
def restsOfAny : List (List Piece) → List UInt8 → List (List UInt8)
  | [], _ => []
  | b :: bs, s => (if isVoidList b then [] else restsOfAll b [s]) ++ restsOfAny bs s

end

/-! ## Patterns that end in a point -/

/-- Whether a piece is a character. -/
def Piece.isLiteral : Piece → Bool
  | .literal _ => true
  | _ => false

/-- Whether a piece is the given character. -/
def Piece.isChar (c : Char) : Piece → Bool
  | .literal d => c == d
  | _ => false

/-- Whether a pattern that ends in a point is a plain text with anything in front of it, such that
the file name is not what is compared. -/
def isPlainEnding : List Piece → Bool
  | .someDirectories :: .anyText :: ps => ps.all Piece.isLiteral && ps.length != 1
  | .someDirectories :: ps => ps.all Piece.isLiteral && ps.any (Piece.isChar '/')
  | .anyText :: ps => ps.all Piece.isLiteral && ps.length != 1
  | ps => ps.all Piece.isLiteral

/-- Whether a pattern ends in a point and has to be compared with the file name of a path. -/
def needsFileName (pieces : List Piece) : Bool :=
  match pieces.getLast? with
  | some p => p.isChar '.' && !isPlainEnding pieces
  | none => false

/-! ## Whole paths -/

/-- Whether a pattern matches some bytes. A pattern of directories alone matches everything. -/
def matchesBytes (pieces : List Piece) (s : List UInt8) : Bool :=
  match pieces with
  | [.someDirectories] => true
  | ps => !needsFileName ps && (restsOfAll ps [s]).contains []

/-- Whether a pattern matches a path. -/
def matchesPath (pieces : List Piece) (path : String) : Bool :=
  matchesBytes pieces (Text.Utf8.bytesOf path)

end DocScope.Glob
