import DocScope.Text.Blank

/-!
# Comments

A comment is a block `/* … */` or a line `// …`. Its value is the text between the delimiters, so
a doc block `/** … */` is a block comment whose value starts with an asterisk.
-/

namespace DocScope

/-- The two forms of a comment. -/
inductive CommentKind where
  /-- Between `/*` and `*/`. -/
  | block
  /-- From `//` to the end of the line. -/
  | line
deriving DecidableEq, Repr

/-- A comment and the line it starts on. -/
structure Comment where
  kind : CommentKind
  value : String
  line : Nat
deriving DecidableEq, Repr

namespace Comment

/-- The kind and the value of a comment with the given text; `none` for a text that is no comment.
A block need not be closed, and line ends after a line comment are not part of its value. -/
def read? (text : List Char) : Option (CommentKind × List Char) :=
  match Text.stripStart? ['/', '*'] text with
  | some rest => some (.block, (Text.stripEnd? ['*', '/'] rest).getD rest)
  | none =>
    match Text.stripStart? ['/', '/'] text with
    | some rest => some (.line, Text.dropEnd (fun c => c == '\r' || c == '\n') rest)
    | none => none

/-- The comment with the given text on the given line. -/
def parse? (text : String) (line : Nat) : Option Comment :=
  (read? text.toList).map fun (kind, value) => ⟨kind, .ofList value, line⟩

/-- Doc blocks are the block comments whose value starts with an asterisk. -/
def isDocBlock (c : Comment) : Bool :=
  c.kind == .block && c.value.toList.head? == some '*'

end Comment

end DocScope
