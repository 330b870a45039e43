import DocScope.Check.Declaration
import DocScope.Scope.Resolver

/-!
# The lint rule

A lint host hands the function-like nodes of a file to the rule one by one and gets at most one
diagnostic for each. The rule remembers nothing between nodes, so that it always sees the current
diff.
-/

namespace DocScope

/-- The description of the rule. -/
structure RuleMeta where
  name : String
  kind : String
  description : String
  recommended : Bool

/-- The description of the rule. -/
def ruleMeta : RuleMeta where
  name := "require-jsdoc"
  kind := "suggestion"
  description := "Require JSDoc comments for functions, bound arrows and hooks"
  recommended := false

/-- A reported problem. -/
structure Diagnostic where
  line : Nat
  message : String
deriving DecidableEq, Repr

/-- The rule for one selector. -/
structure DocRule where
  resolver : Resolver

namespace DocRule

/-- The rule for a repository. -/
def make (selector : Selector) (vcs : VersionControl) (world : World) (root : String) : DocRule :=
  ⟨.make selector vcs world root none false⟩

/-- What the rule says about one node of a file. -/
def visit (r : DocRule) (file : String) (node : FunctionNode) (s : Session) :
    Option Diagnostic × Session :=
  match node.declaration? with
  | none => (none, s)
  | some d =>
    let (inScope, s) := r.resolver.inScope file d.line s
    if inScope then
      ((check d node.leadingComments r.resolver.selector).map fun v => ⟨v.line, v.message⟩, s)
    else (none, s)

/-- What the rule says about all nodes of a file, in their order. -/
def lintNodes (r : DocRule) (file : String) : List FunctionNode → Session → List Diagnostic × Session
  | [], s => ([], s)
  | n :: ns, s =>
    let (d, s) := r.visit file n s
    let (ds, s) := r.lintNodes file ns s
    (d.toList ++ ds, s)

/-- What the rule says about an analyzed file. -/
def lint (r : DocRule) (file : String) (facts : FileFacts) (s : Session) :
    List Diagnostic × Session :=
  r.lintNodes file facts.functions s

end DocRule

end DocScope
