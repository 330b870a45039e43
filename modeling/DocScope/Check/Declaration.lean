import DocScope.Check.Selector
import DocScope.Source.FunctionNode

/-!
# Declarations and violations

`FunctionNode.declaration?` picks the function-like nodes that need a doc comment; `check` says
whether such a declaration has one.
-/

namespace DocScope

/-- The kinds of declarations. -/
inductive DeclarationKind where
  /-- A function declaration. -/
  | namedFunction
  /-- A function or arrow expression bound to a variable. -/
  | namedArrow
  /-- A declaration whose name follows the naming rule of hooks. -/
  | hook
deriving DecidableEq, Repr

/-- The name of a kind in reports. -/
def DeclarationKind.name : DeclarationKind → String
  | .namedFunction => "named_function"
  | .namedArrow => "named_arrow"
  | .hook => "hook"

/-- A node that needs a doc comment. -/
structure Declaration where
  kind : DeclarationKind
  name : Option String
  line : Nat
deriving DecidableEq, Repr

/-- Hooks are called `use`, or `use` and then an ASCII capital or digit. -/
def isHookName (name : String) : Bool :=
  match Text.stripStart? ['u', 's', 'e'] name.toList with
  | none => false
  | some [] => true
  | some (c :: _) => c.isUpper || c.isDigit

/-- The kind and name of what a form declares; expressions that are bound to no variable declare
nothing. -/
def FunctionForm.declared? : FunctionForm → Option (DeclarationKind × Option String)
  | .declaration n => some (.namedFunction, n)
  | .arrow (.bound n) => some (.namedArrow, some n)
  | .expression _ (.bound n) => some (.namedArrow, some n)
  | _ => none

/-- The declaration a node stands for, if it needs a doc comment. -/
def FunctionNode.declaration? (f : FunctionNode) : Option Declaration :=
  if f.isAnonymousCallback then none
  else f.form.declared?.map fun (kind, name) =>
    { kind := if name.any isHookName then .hook else kind, name, line := f.line }

/-- A declaration without a doc comment. -/
structure Violation where
  name : Option String
  line : Nat
  note : Option ScopeNote
deriving DecidableEq, Repr

namespace Violation

/-- The name to show. -/
def displayName (v : Violation) : String := v.name.getD "function"

/-- The message for a missing doc comment of the function called `name`. -/
def messageFor (name : String) (note : Option ScopeNote) : String :=
  "Function \"" ++ name ++ "\" must have a JSDoc comment" ++
    match note with
    | some n => " (" ++ n.text ++ ")"
    | none => ""

/-- The message of a violation. -/
def message (v : Violation) : String := messageFor v.displayName v.note

end Violation

/-- Whether a doc block is among the comments. -/
def hasDocComment (comments : List Comment) : Bool := comments.any (·.isDocBlock)

/-- Checks a declaration with the given comments in front of it. -/
def check (d : Declaration) (comments : List Comment) (selector : Selector) : Option Violation :=
  if hasDocComment comments then none else some ⟨d.name, d.line, selector.note?⟩

end DocScope
