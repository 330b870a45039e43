/-!
# Documentation entries

What a doc comment says about a declaration.
-/

namespace DocScope

/-- A documented parameter. -/
structure ParamDoc where
  name : String
  type : String
  description : String
deriving DecidableEq, Repr

/-- The documented result. -/
structure ReturnDoc where
  type : String
  description : String
deriving DecidableEq, Repr

/-- The documentation of one declaration. -/
structure DocEntry where
  name : String
  description : String
  params : List ParamDoc
  returns : Option ReturnDoc
  examples : List String
  file : String
deriving DecidableEq, Repr

end DocScope
