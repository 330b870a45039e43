import DocScope.Tree.Basic

/-!
# Parsers

A parser is given, not chosen here: everything that is read off source files is read off the trees
of some parser. It may go on after a syntax error; what it has made of such a source is a tree like
any other, with a mark.
-/

namespace DocScope

/-- The dialects of the script language. -/
inductive Dialect where
  /-- Scripts without types; markup is allowed. -/
  | script
  /-- Scripts with types. -/
  | typed
  /-- Scripts with types and markup. -/
  | typedMarkup
deriving DecidableEq, Repr

/-- Whether the dialect has types. -/
def Dialect.hasTypes : Dialect → Bool
  | .script => false
  | _ => true

/-- Whether the dialect has markup. -/
def Dialect.hasMarkup : Dialect → Bool
  | .typed => false
  | _ => true

/-- What a parser makes of a source. -/
structure Parsed where
  tree : Tree
  /-- Whether the source has syntax errors. -/
  hasErrors : Bool
deriving Repr

/-- A parser for all dialects. Where it gives up there is no tree. -/
abbrev Parser := Dialect → List UInt8 → Option Parsed

/-- The parser that gives up on every source. -/
def Parser.silent : Parser := fun _ _ => none

/-- The parser that knows one source. -/
def Parser.ofSource (source : List UInt8) (parsed : Parsed) : Parser := fun _ other =>
  if other = source then some parsed else none

theorem Parser.ofSource_self (source : List UInt8) (parsed : Parsed) (d : Dialect) :
    ofSource source parsed d source = some parsed :=
  if_pos rfl

end DocScope
