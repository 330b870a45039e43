import DocScope.Source.Comment
import DocScope.Source.Span

/-!
# Function-like nodes of a source file

What an analysis of a file yields: every function declaration, arrow function and function
expression, with the place it is bound to, the line of the construct that introduces it, its span
and the comments in front of it.
-/

namespace DocScope

/-- Where the value of a function expression goes. -/
inductive BindingContext where
  /-- It initializes the variable `name`. -/
  | bound (name : String)
  /-- It is an argument of a call. -/
  | callArgument
  /-- Any other place. -/
  | other
deriving DecidableEq, Repr

/-- The form of a function-like node. -/
inductive FunctionForm where
  /-- A declaration; only a default export may lack a name. -/
  | declaration (name : Option String)
  /-- An arrow function. -/
  | arrow (context : BindingContext)
  /-- A function expression, which may have a name of its own. -/
  | expression (name : Option String) (context : BindingContext)
deriving DecidableEq, Repr

namespace FunctionForm

/-- The name of a form. -/
def label : FunctionForm → String
  | .declaration _ => "function declaration"
  | .arrow _ => "arrow function"
  | .expression _ _ => "function expression"

/-- The binding context; declarations have none. -/
def context? : FunctionForm → Option BindingContext
  | .declaration _ => none
  | .arrow c => some c
  | .expression _ c => some c

/-- The name written in the function itself. -/
def ownName? : FunctionForm → Option String
  | .declaration n => n
  | .arrow _ => none
  | .expression n _ => n

end FunctionForm

/-- A function-like node. -/
structure FunctionNode where
  form : FunctionForm
  /-- The line of the outer construct: the declarator for a bound function, else the function. -/
  line : Nat
  span : Span
  /-- The comments right before the outer construct, in source order. -/
  leadingComments : List Comment
deriving DecidableEq, Repr

namespace FunctionNode

/-- Arrows and unnamed function expressions that are arguments of a call. -/
def isAnonymousCallback (f : FunctionNode) : Bool :=
  match f.form with
  | .declaration _ => false
  | .arrow c => c == .callArgument
  | .expression n c => n.isNone && c == .callArgument

end FunctionNode

/-- What an analysis says about one file. -/
structure FileFacts where
  path : String
  language : String
  functions : List FunctionNode
  hasParseErrors : Bool
deriving DecidableEq, Repr

end DocScope
