import DocScope.Source.FunctionNode
import DocScope.Text.Utf8
import DocScope.Tree.Basic

/-!
# The functions of a tree

Every node of a function kind yields one `FunctionNode`.

* Its context is read off the nearest ancestor that is not a pair of parentheses: the value of a
  declarator with a plain name is bound to that name, a child of an argument list is a call
  argument.
* Its leading comments are the comment siblings right before its *anchor*: the node in front of
  which a doc comment for it stands.
-/

namespace DocScope

/-- The source text of a tree; empty where it is not UTF-8. -/
def Tree.text (source : List UInt8) (t : Tree) : String :=
  (Text.Utf8.text? ((source.drop t.start).take (t.stop - t.start))).getD ""

/-- The line a tree starts on. -/
def Tree.line (source : List UInt8) (t : Tree) : Nat := (Position.ofOffset source t.start).line

namespace Place

/-- Leaves pairs of parentheses: the outermost of the parentheses directly around `focus`, or the
place itself. The recursion is on the frames above. -/
def outsideParentheses (focus : Tree) : List Frame → Place
  | [] => ⟨focus, []⟩
  | f :: fs => if f.kind = .parenthesized then outsideParentheses (f.fill focus) fs else ⟨focus, f :: fs⟩

/-- The text of the child of `t` with the role of a name, unless it is empty. -/
def nameOf? (source : List UInt8) (t : Tree) : Option String :=
  ((t.childWithRole? .name).map (·.text source)).filter (· ≠ "")

/-- Where the value of the function at `p` goes. -/
def bindingContext (source : List UInt8) (p : Place) : BindingContext :=
  let q := outsideParentheses p.focus p.above
  match q.parent? with
  | none => .other
  | some parent =>
    match parent.focus.kind with
    | .declarator =>
      match parent.focus.childWithRole? .name with
      | some n =>
        if q.isChild .value && n.kind == .identifier then .bound (n.text source) else .other
      | none => .other
    | .arguments => .callArgument
    | _ => .other

/-- Whether `p` is a child of an export statement that has the keyword `default`. -/
def isDefaultExport (p : Place) : Bool :=
  match p.parent? with
  | none => false
  | some parent =>
    parent.focus.kind == .exportStatement &&
      parent.focus.children.any (·.kind == .token "default")

/-- The form of the function at `p`; `none` when the node is no function. -/
def functionForm? (source : List UInt8) (p : Place) : Option FunctionForm :=
  match p.focus.kind with
  | .functionDeclaration => some (.declaration (nameOf? source p.focus))
  | .generatorDeclaration => some (.declaration (nameOf? source p.focus))
  | .functionExpression =>
    if p.isDefaultExport then some (.declaration (nameOf? source p.focus))
    else some (.expression (nameOf? source p.focus) (p.bindingContext source))
  | .arrowFunction => some (.arrow (p.bindingContext source))
  | _ => none

/-- The construct that introduces a function of the given form: the declarator of a bound function,
else the function itself. -/
def outer (p : Place) (form : FunctionForm) : Place :=
  match form.context? with
  | some (.bound _) =>
    let value := outsideParentheses p.focus p.above
    value.parent?.getD value
  | _ => p

/-- Whether no declarator stands before this one in the same declaration. -/
def isFirstDeclarator (p : Place) : Bool := p.before.all (·.kind != .declarator)

/-- The export statement around `p` if its parent is one, else `p`. -/
def exported (p : Place) : Place :=
  match p.parent? with
  | some parent => if parent.focus.kind = .exportStatement then parent else p
  | none => p

/-- The node whose preceding comments document the construct at `p`: the whole statement when the
construct is its first declarator, with `export` in front of it. -/
def anchor (p : Place) : Place :=
  if p.focus.kind = .declarator then
    match p.parent? with
    | some declaration => if p.isFirstDeclarator then declaration.exported else p
    | none => p
  else p.exported

/-- The comments directly before `p` with no other sibling in between, in source order. -/
def leadingComments (source : List UInt8) (p : Place) : List Comment :=
  ((p.before.takeWhile (·.kind == .comment)).filterMap fun t =>
    Comment.parse? (t.text source) (t.line source)).reverse

/-- The function at `p`, if there is one. -/
def functionNode? (source : List UInt8) (p : Place) : Option FunctionNode :=
  (p.functionForm? source).map fun form =>
    { form
      line := (p.outer form).focus.line source
      span := .ofOffsets source p.focus.start p.focus.stop
      leadingComments := (p.outer form).anchor.leadingComments source }

end Place

/-- All functions of a tree, ordered by the offset they start at. -/
def Tree.functions (source : List UInt8) (t : Tree) : List FunctionNode :=
  ((t.places []).filterMap (·.functionNode? source)).mergeSort
    fun a b => a.span.startByte ≤ b.span.startByte

end DocScope
