/-!
# Concrete trees and places in them

A `Tree` is the concrete tree of a source file: every token and every comment is a node, with the
byte offsets it covers. A `Place` is a node together with the way down to it, so that its parent,
its siblings and the named children of its parent can be asked for.
-/

namespace DocScope

/-- What a node of a tree is. Only the kinds that matter for finding functions are told apart. -/
inductive Kind where
  | comment
  | functionDeclaration
  | generatorDeclaration
  | functionExpression
  | arrowFunction
  | parenthesized
  | declarator
  | exportStatement
  | arguments
  | identifier
  /-- A keyword or a punctuation mark. -/
  | token (text : String)
  /-- A token of width zero that no reader of the tree sees. -/
  | hidden
  /-- Any other phrase. -/
  | phrase (label : String)
deriving DecidableEq, Repr, Inhabited

/-- The roles a child can have in its parent. -/
inductive Role where
  | name
  | value
deriving DecidableEq, Repr

/-- A concrete tree: its kind, its role in its parent, the bytes it covers, its children. -/
inductive Tree where
  | node (kind : Kind) (role : Option Role) (start stop : Nat) (children : List Tree)
deriving Repr

namespace Tree

instance : Inhabited Tree := ⟨.node .hidden none 0 0 []⟩

/-- The kind of the root of a tree. -/
def kind : Tree → Kind
  | .node k _ _ _ _ => k

/-- The role a tree has in its parent. -/
def role : Tree → Option Role
  | .node _ r _ _ _ => r

/-- The offset of the first byte. -/
def start : Tree → Nat
  | .node _ _ s _ _ => s

/-- The offset after the last byte. -/
def stop : Tree → Nat
  | .node _ _ _ e _ => e

/-- The children from left to right. -/
def children : Tree → List Tree
  | .node _ _ _ _ cs => cs

/-- The same tree in another role. -/
def withRole (r : Role) : Tree → Tree
  | .node k _ s e cs => .node k (some r) s e cs

/-- The first child with the given role. -/
def childWithRole? (t : Tree) (r : Role) : Option Tree :=
  t.children.find? (·.role == some r)

end Tree

/-- A node without one of its children: the children before the gap, nearest first, and those
after it. -/
structure Frame where
  kind : Kind
  role : Option Role
  start : Nat
  stop : Nat
  before : List Tree
  after : List Tree

/-- The node of a frame with `t` put into the gap. -/
def Frame.fill (f : Frame) (t : Tree) : Tree :=
  .node f.kind f.role f.start f.stop (f.before.reverse ++ t :: f.after)

/-- A node and the frames above it, innermost first. -/
structure Place where
  focus : Tree
  above : List Frame

namespace Place

/-- The place of the parent; the root has none. -/
def parent? (p : Place) : Option Place :=
  match p.above with
  | [] => none
  | f :: fs => some ⟨f.fill p.focus, fs⟩

/-- The kind of the parent. -/
def parentKind? (p : Place) : Option Kind := p.above.head?.map (·.kind)

/-- The siblings before this node, nearest first. -/
def before (p : Place) : List Tree :=
  match p.above with
  | [] => []
  | f :: _ => f.before

/-- Whether this node is the first child of its parent with the given role. -/
def isChild (p : Place) (r : Role) : Bool :=
  p.focus.role == some r && p.before.all (·.role != some r)

end Place

/-! ## All places of a tree -/

mutual

/-- The places of `t` and of all nodes below it, in the order in which the nodes start; `above` is
the way down to `t`. -/
def Tree.places (above : List Frame) : Tree → List Place
  | .node k r s e cs => ⟨.node k r s e cs, above⟩ :: Tree.placesOfChildren above k r s e [] cs

/-- The places below a node with the given fields, of whose children those in `before` are done. -/
def Tree.placesOfChildren (above : List Frame) (k : Kind) (r : Option Role) (s e : Nat)
    (before : List Tree) : List Tree → List Place
  | [] => []
  | c :: cs =>
    Tree.places (⟨k, r, s, e, before, cs⟩ :: above) c ++
      Tree.placesOfChildren above k r s e (c :: before) cs

end

end DocScope
