/-!
# JSON values

Objects keep the order of their fields and may repeat a key.
-/

namespace DocScope

/-- A JSON value. -/
inductive Json where
  | null
  | bool (b : Bool)
  /-- A number as it is written. -/
  | number (literal : String)
  | string (text : String)
  /-- A string with a character escape that stands for half of a character. -/
  | brokenString
  | array (items : List Json)
  | object (fields : List (String × Json))
deriving Inhabited

namespace Json

/-- The number `n`. -/
def nat (n : Nat) : Json := .number (Nat.repr n)

end Json

end DocScope
