import DocScope.Grammar.Basic
import DocScope.Grammar.Terminal
import DocScope.Tree.Parser

/-!
# Rules

The names of the rules of the script grammar, and the shorthands in which the rules are written.
-/

namespace DocScope.Grammar

/-- The rules of the grammar. The argument `operand` says whether a binary operator could follow
the phrase, which decides how a comment after it is treated. -/
inductive Rule where
  | program
  | statement
  | declaration (operand : Bool)
  | declarators
  | functionDeclaration (operand : Bool)
  | classDeclaration (operand : Bool)
  | block
  | body (operand : Bool)
  | importStatement
  | exportStatement
  | expressions
  | expression
  | conditional
  | binary (level : Nat)
  | power
  | unary
  | postfixed
  | leftHand
  | constructorOf
  | primary
  | arrow
  | functionExpression
  | classExpression
  | classRest
  | member
  | decorator
  | arguments
  | object
  | objectMember
  | template
  | propertyName
  | pattern
  | objectPattern
  | arrayPattern
  | parameters
  | signature
  | markup
  | markupChild
  | markupValue
  | type
  | typeUnion
  | typeOperator
  | typeSuffix
  | typePrimary
  | typeArguments
  | typeParameters
  | typeLabel
  | typeMember
  | objectType
deriving DecidableEq, Repr

/-- The expressions of the script grammar. -/
abbrev Form := Expr Rule Terminal

namespace Form

/-- One after the other. -/
def sequence (es : List Form) : Form := es.foldr .seq .empty

/-- The first that fits; nothing fits an empty list. -/
def oneOf : List Form → Form
  | [] => .ahead false .empty
  | [e] => e
  | e :: es => .alt e (oneOf es)

/-- At most once. -/
def opt (e : Form) : Form := .alt e .empty

/-- At least once. -/
def many1 (e : Form) : Form := .seq e (.many e)

/-- A punctuation mark. -/
def p (s : String) : Form := .token (.punct s)

/-- A part of a punctuation mark. -/
def g (s : String) : Form := .token (.glyph s)

/-- A keyword. -/
def kw (s : String) : Form := .token (.keyword s)

/-- A phrase that is told apart from no other. -/
def phrase (label : String) (es : List Form) : Form := .node (.phrase label) (sequence es)

/-- Extends a chain to a phrase that is told apart from no other. -/
def extended (label : String) (es : List Form) : Form := .extend (.phrase label) (sequence es)

/-- One or more, divided by commas, with an optional comma at the end. -/
def commaList1 (e : Form) : Form := sequence [e, .many (.seq (p ",") e), opt (p ",")]

/-- Any number, divided by commas, with an optional comma at the end. -/
def commaList (e : Form) : Form := opt (commaList1 e)

/-- The end of a statement. -/
def semicolon (operand : Bool) : Form :=
  .alt (.token (.automaticSemicolon operand)) (p ";")

/-- The inserted semicolon that may follow a closing brace. -/
def afterBrace (operand : Bool) : Form := opt (.token (.automaticSemicolon operand))

/-- Only in dialects with types. -/
def ifTyped (d : Dialect) (e : Form) : Form := if d.hasTypes then e else .empty

/-- Alternatives of dialects with types. -/
def typedOnly (d : Dialect) (es : List Form) : List Form := if d.hasTypes then es else []

end Form

end DocScope.Grammar
