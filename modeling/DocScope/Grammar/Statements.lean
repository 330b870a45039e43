import DocScope.Grammar.Expressions
import DocScope.Grammar.Types

/-!
# Statements and classes of the script grammar

A declaration at the start of a statement could also be read as an expression, so an operator could
follow it; behind `export` it could not. The same holds of an empty block, which could be an empty
object. This is what the argument `operand` of the rules records.
-/

namespace DocScope.Grammar.Form

/-- A whole source. -/
def program : Form :=
  sequence [opt (.token .interpreterLine), .many (.rule .statement), .token .endOfInput]

/-- A condition in parentheses. -/
def condition : Form := .node .parenthesized (sequence [p "(", .rule .expressions, p ")"])

/-! ## Declarations -/

/-- The declarators of a declaration and the semicolon after them. -/
def declarators (d : Dialect) : Form :=
  let name : Form := .field .name (oneOf [.rule .objectPattern, .rule .arrayPattern, .token .identifier])
  let typed : Form := ifTyped d (sequence [opt (p "!"), opt (.rule .typeLabel)])
  let rest (operand : Bool) : Form := oneOf [.seq (p ",") (.rule .declarators), semicolon operand]
  oneOf [
    .seq (.node .declarator (sequence [name, typed, p "=", .field .value (.rule .expression)]))
      (rest true),
    .seq (.node .declarator (sequence [name, typed])) (rest false)]

/-- Whether a declarator can follow, so that `let` is a keyword. -/
def declaratorAhead : Form := .ahead true (oneOf [.token .identifier, p "\x7b", p "["])

/-- A function or generator declaration; in typed scripts also a signature without a body. -/
def functionDeclaration (d : Dialect) (operand : Bool) : Form :=
  let head (star : List Form) : List Form :=
    [opt (.seq (kw "async") (.token .sameLine)), kw "function"] ++ star ++
      [.field .name (.token .identifier), .rule .signature]
  let rest : List Form := [.rule (.body operand), afterBrace operand]
  oneOf ([
    .node .functionDeclaration (sequence (head [] ++ rest)),
    .node .generatorDeclaration (sequence (head [p "*"] ++ rest))] ++
    typedOnly d [phrase "functionSignature" (head [opt (p "*")] ++ [semicolon false])])

/-- A class declaration. -/
def classDeclaration (d : Dialect) (operand : Bool) : Form :=
  oneOf ([
    phrase "class" [.many (.rule .decorator), kw "class", .token .identifier, .rule .classRest,
      afterBrace operand]] ++
    typedOnly d [phrase "abstractClass" [.many (.rule .decorator), kw "abstract", kw "class",
      .token .identifier, .rule .classRest]])

/-- The dotted name and the body of a namespace. -/
def namespaceRest : Form :=
  sequence [oneOf [.token .string, .seq (.token .identifier) (.many (.seq (p ".") (.token .word)))],
    opt (.rule (.body false))]

/-- The declarations that only typed scripts have. -/
def typedDeclarations : List Form :=
  let enumMember : Form :=
    phrase "enumMember" [.rule .propertyName, opt (.seq (p "=") (.rule .expression))]
  [phrase "interface" [kw "interface", .token .identifier, opt (.rule .typeParameters),
     opt (sequence [kw "extends", commaList1 (.rule .type)]), .rule .objectType],
   phrase "enum" [opt (kw "const"), kw "enum", .token .identifier, p "\x7b",
     phrase "enumBody" [commaList enumMember, p "\x7d"]],
   phrase "typeAlias" [kw "type", .token .identifier, opt (.rule .typeParameters), p "=",
     .rule .type, semicolon false],
   phrase "module" [kw "module", .token .sameLine, namespaceRest],
   phrase "importAlias" [kw "import", .token .identifier, p "=", .token .identifier,
     .many (.seq (p ".") (.token .word)), semicolon false],
   phrase "ambient" [kw "declare", oneOf [
     .rule (.declaration false),
     .seq (kw "global") (.rule (.body false)),
     phrase "namespace" [kw "namespace", namespaceRest, afterBrace false]]]]

/-- A declaration. -/
def declaration (d : Dialect) (operand : Bool) : Form :=
  oneOf ([.rule (.functionDeclaration operand), .rule (.classDeclaration operand)] ++
    typedOnly d typedDeclarations ++ [
    phrase "declaration" [oneOf [kw "const", kw "var", .seq (kw "let") declaratorAhead],
      .rule .declarators]])

/-! ## Blocks -/

/-- A block that stands as a statement. -/
def block : Form :=
  oneOf [
    phrase "block" [p "\x7b", p "\x7d", afterBrace true],
    phrase "block" [p "\x7b", many1 (.rule .statement), p "\x7d", afterBrace false]]

/-- The body of a function, and of every construct that needs a block. -/
def body (operand : Bool) : Form :=
  phrase "block" [p "\x7b", .many (.rule .statement), p "\x7d", afterBrace operand]

/-! ## Modules -/

/-- The name of an imported or exported binding. -/
def bindingName : Form := oneOf [.token .word, .token .string]

/-- Bindings in braces. -/
def bindings (d : Dialect) : Form :=
  phrase "bindings" [p "\x7b", commaList (phrase "binding" [
    ifTyped d (opt (sequence [oneOf [kw "type", kw "typeof"], .ahead true bindingName,
      .ahead false (kw "as")])),
    bindingName, opt (.seq (kw "as") bindingName)]), p "\x7d"]

/-- The module something comes from. -/
def fromClause : Form :=
  sequence [kw "from", .token .string,
    opt (sequence [oneOf [kw "with", kw "assert"], .rule .object])]

/-- An import. -/
def importStatement (d : Dialect) : Form :=
  let star : Form := sequence [p "*", kw "as", .token .identifier]
  let clause : Form :=
    oneOf [star, bindings d,
      sequence [.token .identifier, opt (.seq (p ",") (oneOf [star, bindings d]))]]
  let attributes : Form := opt (sequence [oneOf [kw "with", kw "assert"], .rule .object])
  phrase "import" [kw "import", oneOf ([
    sequence [clause, fromClause],
    sequence [.token .string, attributes]] ++ typedOnly d [
    sequence [oneOf [kw "type", kw "typeof"], clause, fromClause],
    sequence [opt (kw "type"), .token .identifier, p "=", kw "require", p "(", .token .string,
      p ")"]]),
    semicolon false]

/-- An export. -/
def exportStatement (d : Dialect) : Form :=
  let star : Form := sequence [p "*", opt (.seq (kw "as") bindingName)]
  .node .exportStatement (sequence [.many (.rule .decorator), kw "export", oneOf ([
    sequence [star, fromClause, semicolon false],
    sequence [bindings d, opt fromClause, semicolon false],
    .seq (kw "default") (oneOf [
      .rule (.declaration true),
      .seq (.rule .expression) (semicolon true)])] ++ typedOnly d [
    sequence [kw "type", bindings d, opt fromClause, semicolon false],
    sequence [kw "type", star, fromClause, semicolon false],
    sequence [p "=", .rule .expression, semicolon true],
    sequence [kw "as", kw "namespace", .token .identifier, semicolon false],
    phrase "namespace" [kw "namespace", .token .sameLine, namespaceRest]] ++ [
    .rule (.declaration false)])])

/-! ## Statements -/

/-- The head of a loop over the members of something. -/
def loopOver (d : Dialect) : Form :=
  sequence [oneOf [
    sequence [oneOf [kw "const", kw "var", .seq (kw "let") declaratorAhead], .rule .pattern,
      ifTyped d (opt (.rule .typeLabel)), opt (.seq (p "=") (.rule .expression))],
    .rule .leftHand,
    .rule .pattern], oneOf [kw "in", kw "of"], .rule .expressions]

/-- The head of a counting loop. -/
def loopWith : Form :=
  sequence [oneOf [
    phrase "declaration" [oneOf [kw "const", kw "var", .seq (kw "let") declaratorAhead],
      .rule .declarators],
    phrase "expressionStatement" [.rule .expressions, p ";"],
    p ";"],
    opt (.rule .expressions), p ";", opt (.rule .expressions)]

/-- A statement. -/
def statement (d : Dialect) : Form :=
  let jump (w : String) : Form :=
    phrase w [kw w, oneOf [semicolon false, .seq (.token .identifier) (semicolon false)]]
  oneOf ([
    .rule .block,
    p ";",
    .rule .exportStatement,
    .rule .importStatement,
    .rule (.declaration true),
    phrase "if" [kw "if", condition, .rule .statement,
      opt (phrase "else" [kw "else", .rule .statement])],
    phrase "for" [kw "for", opt (kw "await"), p "(", oneOf [loopOver d, loopWith], p ")",
      .rule .statement],
    phrase "while" [kw "while", condition, .rule .statement],
    phrase "do" [kw "do", .rule .statement, kw "while", condition, opt (semicolon false)],
    phrase "return" [kw "return", oneOf [semicolon false, .seq (.rule .expressions) (semicolon true)]],
    phrase "throw" [kw "throw", .rule .expressions, semicolon true],
    jump "break", jump "continue",
    phrase "debugger" [kw "debugger", semicolon false],
    phrase "switch" [kw "switch", condition, phrase "switchBody" [p "\x7b", .many (oneOf [
      phrase "case" [kw "case", .rule .expressions, p ":", .many (.rule .statement)],
      phrase "case" [kw "default", p ":", .many (.rule .statement)]]), p "\x7d"]],
    phrase "try" [kw "try", .rule (.body false),
      opt (phrase "catch" [kw "catch",
        opt (sequence [p "(", .rule .pattern, ifTyped d (opt (.rule .typeLabel)), p ")"]),
        .rule (.body false)]),
      opt (phrase "finally" [kw "finally", .rule (.body false)])],
    phrase "with" [kw "with", condition, .rule .statement],
    phrase "labeled" [.token .identifier, p ":", .rule .statement]] ++ typedOnly d [
    phrase "expressionStatement" [
      phrase "namespace" [kw "namespace", .token .sameLine, namespaceRest], semicolon true]] ++ [
    phrase "expressionStatement" [.rule .expressions, semicolon true]])

/-! ## Classes -/

/-- A decorator. -/
def decorator : Form :=
  phrase "decorator" [p "@", oneOf [condition,
    .chain (.token .identifier) (oneOf [
      extended "member" [p ".", .token .word],
      extended "call" [opt (.rule .typeArguments), .rule .arguments]])]]

/-- A class as an expression. -/
def classExpression : Form :=
  phrase "class" [.many (.rule .decorator), kw "class",
    opt (.seq (.ahead false (oneOf [kw "extends", kw "implements"])) (.token .identifier)),
    .rule .classRest]

/-- What follows the name of a class. -/
def classRest (d : Dialect) : Form :=
  sequence [ifTyped d (opt (.rule .typeParameters)),
    opt (phrase "heritage" [kw "extends", .rule .leftHand, ifTyped d (opt (.rule .typeArguments))]),
    ifTyped d (opt (.seq (kw "implements") (commaList1 (.rule .type)))),
    phrase "classBody" [p "\x7b", .many (.rule .member), p "\x7d"]]

/-- A member of a class. -/
def member (d : Dialect) : Form :=
  let words : List String :=
    ["static", "async", "get", "set", "accessor"] ++
      if d.hasTypes then
        ["public", "private", "protected", "abstract", "override", "readonly", "declare"]
      else []
  let head : Form := .many (oneOf (words.map modifier ++ [.rule .decorator]))
  let field : Form := sequence [head, .rule .propertyName, ifTyped d (sequence [
    opt (oneOf [p "?", p "!"]), opt (.rule .typeLabel)])]
  oneOf ([
    p ";",
    phrase "staticBlock" [kw "static", .rule (.body false)],
    phrase "method" [head, opt (p "*"), .rule .propertyName, ifTyped d (opt (p "?")),
      .rule .signature, .rule (.body false)]] ++ typedOnly d [
    phrase "methodSignature" [head, opt (p "*"), .rule .propertyName, opt (p "?"),
      .rule .signature, semicolon false],
    phrase "indexSignature" [head, indexSignature, semicolon false]] ++ [
    .seq (phrase "field" [field, p "=", .rule .expression]) (semicolon true),
    .seq (phrase "field" [field]) (semicolon false)])

end DocScope.Grammar.Form
