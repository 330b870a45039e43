import DocScope.Check.Selector
import DocScope.Json.Basic

/-!
# Options of the lint rule

The options name a selector, as `{"mode": "new"}` or `["new"]`; without one it is `full`. Unknown
options are refused.
-/

namespace DocScope

/-- The options of the lint rule. -/
structure RuleOptions where
  mode : Selector
deriving DecidableEq, Repr

/-- The selector a value names: its name, or an object with the name as its only key and nothing
behind it. -/
def Selector.ofJson? : Json → Option Selector
  | .string s => Selector.ofName? s
  | .object [(k, .null)] => Selector.ofName? k
  | _ => none

/-- The options a value stands for. -/
def RuleOptions.ofJson? : Json → Option RuleOptions
  | .object [] => some ⟨.full⟩
  | .object [("mode", v)] => (Selector.ofJson? v).map RuleOptions.mk
  | .array [] => some ⟨.full⟩
  | .array [v] => (Selector.ofJson? v).map RuleOptions.mk
  | _ => none

end DocScope
