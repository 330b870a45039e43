import DocScope.Grammar.Statements

/-!
# The script grammar

All rules together; `parse?` reads a whole source into its tree, and `parser` is the parser that
does so.
-/

namespace DocScope.Grammar

/-- What each rule of the grammar says. -/
def script (d : Dialect) : Rule → Form
  | .program => Form.program
  | .statement => Form.statement d
  | .declaration operand => Form.declaration d operand
  | .declarators => Form.declarators d
  | .functionDeclaration operand => Form.functionDeclaration d operand
  | .classDeclaration operand => Form.classDeclaration d operand
  | .block => Form.block
  | .body operand => Form.body operand
  | .importStatement => Form.importStatement d
  | .exportStatement => Form.exportStatement d
  | .expressions => Form.expressions
  | .expression => Form.expression
  | .conditional => Form.conditional
  | .binary level => Form.binary d level
  | .power => Form.power
  | .unary => Form.unary d
  | .postfixed => Form.postfixed
  | .leftHand => Form.leftHand d
  | .constructorOf => Form.constructorOf
  | .primary => Form.primary d
  | .arrow => Form.arrow
  | .functionExpression => Form.functionExpression
  | .classExpression => Form.classExpression
  | .classRest => Form.classRest d
  | .member => Form.member d
  | .decorator => Form.decorator
  | .arguments => Form.arguments
  | .object => Form.object
  | .objectMember => Form.objectMember
  | .template => Form.template
  | .propertyName => Form.propertyName
  | .pattern => Form.pattern
  | .objectPattern => Form.objectPattern
  | .arrayPattern => Form.arrayPattern
  | .parameters => Form.parameters d
  | .signature => Form.signature d
  | .markup => Form.markup d
  | .markupChild => Form.markupChild
  | .markupValue => Form.markupValue
  | .type => Form.type
  | .typeUnion => Form.typeUnion
  | .typeOperator => Form.typeOperator
  | .typeSuffix => Form.typeSuffix
  | .typePrimary => Form.typePrimary
  | .typeArguments => Form.typeArguments
  | .typeParameters => Form.typeParameters
  | .typeLabel => Form.typeLabel
  | .typeMember => Form.typeMember
  | .objectType => Form.objectType

/-- The fuel for a source of `n` bytes. It suffices (`readProgram_ne_exhausted`). -/
def fuelFor (n : Nat) : Nat := 1000 * (n + 10)

/-- Reads a source as a program. -/
def readProgram (d : Dialect) (source : List UInt8) : Outcome Stand :=
  Expr.run (script d) (Terminal.read d.hasTypes) (·.here.offset) (fuelFor source.length)
    (.rule .program) [] (Stand.ofMark ⟨0, glyphs source⟩)

/-- The tree of a source that has been read. -/
def programTree (source : List UInt8) (trees : List Tree) : Tree :=
  .node (.phrase "program") none 0 source.length (trees.filter (·.kind != .hidden))

/-- The tree of a source that follows the grammar. -/
def parse? (d : Dialect) (source : List UInt8) : Option Tree :=
  match readProgram d source with
  | .fits trees _ => some (programTree source trees)
  | _ => none

/-- Reads sources by the grammar. Of a source that does not follow it nothing is kept but the mark.
Where the fuel did not suffice there would be no tree. -/
def parser : Parser := fun d source =>
  match readProgram d source with
  | .fits trees _ => some ⟨programTree source trees, false⟩
  | .fails => some ⟨programTree source [], true⟩
  | .exhausted => none

theorem parser_of_parse? {d : Dialect} {source : List UInt8} {t : Tree}
    (h : parse? d source = some t) : parser d source = some ⟨t, false⟩ := by
  unfold parse? at h
  unfold parser
  split at h
  · next hread => rw [hread, ← Option.some.inj h]
  · cases h

end DocScope.Grammar
