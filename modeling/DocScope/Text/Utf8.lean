/-!
# Reading UTF-8

`front` reads one character from the front of a byte sequence. Where the bytes are not UTF-8 it says
how long the offending sequence is: the longest start of a well-formed character that stands there,
at least one byte. `decode` turns a whole sequence into characters or reports the first fault,
`decodeLossy` puts U+FFFD in the place of every offending sequence.
-/

namespace DocScope.Text.Utf8

/-- Why a byte sequence is not UTF-8. -/
inductive Fault where
  /-- The `length` bytes from `index` on start no character. -/
  | invalid (length index : Nat)
  /-- The sequence ends inside the character that starts at `index`. -/
  | incomplete (index : Nat)
deriving DecidableEq, Repr

/-- The text of a fault. -/
def Fault.message : Fault → String
  | .invalid n i => "invalid utf-8 sequence of " ++ Nat.repr n ++ " bytes from index " ++ Nat.repr i
  | .incomplete i => "incomplete utf-8 byte sequence from index " ++ Nat.repr i

/-- What stands at the front of a byte sequence. -/
inductive Front where
  /-- No byte is left. -/
  | done
  /-- A character of `width` bytes. -/
  | char (c : Char) (width : Nat)
  /-- `width` bytes that start no character. -/
  | invalid (width : Nat)
  /-- The bytes end inside a character. -/
  | cut
deriving DecidableEq, Repr

/-- Continuation bytes. -/
def isTail (b : UInt8) : Bool := 0x80 ≤ b && b ≤ 0xBF

/-- The second bytes that may follow the first byte of a three-byte character. -/
def secondOfThree (a b : UInt8) : Bool :=
  if a == 0xE0 then 0xA0 ≤ b && b ≤ 0xBF
  else if a == 0xED then 0x80 ≤ b && b ≤ 0x9F
  else isTail b

/-- The second bytes that may follow the first byte of a four-byte character. -/
def secondOfFour (a b : UInt8) : Bool :=
  if a == 0xF0 then 0x90 ≤ b && b ≤ 0xBF
  else if a == 0xF4 then 0x80 ≤ b && b ≤ 0x8F
  else isTail b

/-- The low six bits of a continuation byte. -/
def low (b : UInt8) : Nat := b.toNat % 64

/-- What stands at the front of `bytes`. -/
def front : List UInt8 → Front
  | [] => .done
  | a :: r =>
    if a < 0x80 then .char (Char.ofNat a.toNat) 1
    else if 0xC2 ≤ a && a ≤ 0xDF then
      match r with
      | [] => .cut
      | b :: _ =>
        if isTail b then .char (Char.ofNat ((a.toNat - 0xC0) * 64 + low b)) 2 else .invalid 1
    else if 0xE0 ≤ a && a ≤ 0xEF then
      match r with
      | [] => .cut
      | b :: r =>
        if !secondOfThree a b then .invalid 1
        else match r with
          | [] => .cut
          | c :: _ =>
            if isTail c then
              .char (Char.ofNat ((a.toNat - 0xE0) * 4096 + low b * 64 + low c)) 3
            else .invalid 2
    else if 0xF0 ≤ a && a ≤ 0xF4 then
      match r with
      | [] => .cut
      | b :: r =>
        if !secondOfFour a b then .invalid 1
        else match r with
          | [] => .cut
          | c :: r =>
            if !isTail c then .invalid 2
            else match r with
              | [] => .cut
              | d :: _ =>
                if isTail d then
                  .char (Char.ofNat
                    ((a.toNat - 0xF0) * 262144 + low b * 4096 + low c * 64 + low d)) 4
                else .invalid 3
    else .invalid 1

/-- Reads characters from `bytes`, which start at `index`; `fuel` bounds their number. -/
def decodeFrom : Nat → Nat → List UInt8 → Except Fault (List Char)
  | 0, _, _ => .ok []
  | fuel + 1, index, bytes =>
    match front bytes with
    | .done => .ok []
    | .char c w =>
      match decodeFrom fuel (index + w) (bytes.drop w) with
      | .ok cs => .ok (c :: cs)
      | .error e => .error e
    | .invalid w => .error (.invalid w index)
    | .cut => .error (.incomplete index)

/-- The characters of a UTF-8 byte sequence, or its first fault. -/
def decode (bytes : List UInt8) : Except Fault (List Char) := decodeFrom bytes.length 0 bytes

/-- Like `decodeFrom`, with U+FFFD for every offending sequence. -/
def lossyFrom : Nat → List UInt8 → List Char
  | 0, _ => []
  | fuel + 1, bytes =>
    match front bytes with
    | .done => []
    | .char c w => c :: lossyFrom fuel (bytes.drop w)
    | .invalid w => '\uFFFD' :: lossyFrom fuel (bytes.drop w)
    | .cut => ['\uFFFD']

/-- The characters of a byte sequence, U+FFFD standing for what is not UTF-8. -/
def decodeLossy (bytes : List UInt8) : List Char := lossyFrom bytes.length bytes

/-- The bytes of a text. -/
def encode (s : List Char) : List UInt8 := s.flatMap String.utf8EncodeChar

/-- The bytes of a string. -/
def bytesOf (s : String) : List UInt8 := encode s.toList

/-- The text of a byte sequence, if it is UTF-8. -/
def text? (bytes : List UInt8) : Option String :=
  match decode bytes with
  | .ok cs => some (.ofList cs)
  | .error _ => none

end DocScope.Text.Utf8
