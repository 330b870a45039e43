import DocScope.Text.Blank

/-!
# What part of a code base is checked

The selector `full` takes every declaration; `new` and `staged` take the declarations on lines that
a diff adds: of the working tree or of the index, each against the last commit.
-/

namespace DocScope

/-- The two diffs that can be asked for. -/
inductive DiffScope where
  /-- The working tree against the last commit. -/
  | workingTree
  /-- The index against the last commit. -/
  | index
deriving DecidableEq, Repr

/-- The name of a diff. -/
def DiffScope.name : DiffScope → String
  | .workingTree => "working-tree"
  | .index => "index"

/-- Why a declaration was taken. -/
inductive ScopeNote where
  | newFunction
  | stagedChange
deriving DecidableEq, Repr

namespace ScopeNote

/-- The text of a note. -/
def text : ScopeNote → String
  | .newFunction => "new function"
  | .stagedChange => "staged change"

/-- The name of a note in reports. -/
def name : ScopeNote → String
  | .newFunction => "new_function"
  | .stagedChange => "staged_change"

end ScopeNote

/-- Which declarations are checked. -/
inductive Selector where
  | full
  | new
  | staged
deriving DecidableEq, Repr, Inhabited

namespace Selector

/-- The name of a selector. -/
def name : Selector → String
  | .full => "full"
  | .new => "new"
  | .staged => "staged"

/-- All selectors. -/
def all : List Selector := [.full, .new, .staged]

/-- The selector with exactly the given name. -/
def ofName? (s : String) : Option Selector := all.find? (·.name == s)

/-- The selector with the given name, in any case of its letters. -/
def parse? (s : String) : Option Selector := ofName? (.ofList (Text.asciiLower s.toList))

/-- What is said about a text that names no selector. -/
def unknownMessage (s : String) : String := "unknown mode: " ++ s

/-- The diff a selector restricts to; `full` restricts to none. -/
def diffScope? : Selector → Option DiffScope
  | .full => none
  | .new => some .workingTree
  | .staged => some .index

/-- The note attached to what is found under a selector. -/
def note? : Selector → Option ScopeNote
  | .full => none
  | .new => some .newFunction
  | .staged => some .stagedChange

/-- What a selector takes, in words. -/
def description : Selector → String
  | .full => "all functions"
  | .new => "new functions (compared with HEAD)"
  | .staged => "staged changes"

end Selector

end DocScope
