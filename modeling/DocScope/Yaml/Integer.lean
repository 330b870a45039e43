import DocScope.Text.Hex

/-!
# Unsigned integers of YAML

A plain scalar is an unsigned integer when it is written in decimal digits without idle zeros in
front, or in the digits of another base behind `0x`, `0o` or `0b`; a plus sign may stand in front.
-/

namespace DocScope.Yaml

/-- The number written by digits of a base up to 16, if it fits into 64 bits. -/
def digits? (base : Nat) (ds : List Char) : Option Nat :=
  let digit (d : Char) : Option Nat := (Text.hexDigit? d).filter (· < base)
  if ds = [] then none
  else (ds.foldlM (fun n d => (digit d).map (n * base + ·)) 0).filter (· < 0x10000000000000000)

/-- Whether zeros stand idle in front of digits. -/
def hasIdleZero (ds : List Char) : Bool :=
  1 < ds.length && ds.head? == some '0' && ds.all Char.isDigit

/-- The unsigned integer a plain scalar stands for. -/
def unsigned? (s : List Char) : Option Nat :=
  let s :=
    match s with
    | '+' :: r => r
    | s => s
  match s with
  | '0' :: 'x' :: r => digits? 16 r
  | '0' :: 'o' :: r => digits? 8 r
  | '0' :: 'b' :: r => digits? 2 r
  | s => if hasIdleZero s then none else digits? 10 s

end DocScope.Yaml
