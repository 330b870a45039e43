import DocScope.Grammar.Rule

/-!
# Expressions of the script grammar

Operators bind as usual: each level of `binaryLevels` is a chain over the next one. A function is
looked for before everything else, because its parameter list looks like a parenthesized
expression up to the arrow.
-/

namespace DocScope.Grammar.Form

/-- The levels of the binary operators, the loosest first. -/
def binaryLevels : List (List String) :=
  [["??"], ["||"], ["&&"], ["|"], ["^"], ["&"], ["===", "!==", "==", "!="],
   ["<=", ">=", "<", ">", "instanceof", "in"], [">>>", "<<", ">>"], ["+", "-"], ["*", "/", "%"]]

/-- The level of the comparisons, where types may be ascribed as well. -/
def relationLevel : Nat := 7

/-- An operator that is a mark or a word. -/
def operator (s : String) : Form := if s.toList.all Char.isAlpha then kw s else p s

/-- The operators that assign. -/
def assignment : Form :=
  oneOf (["=", "+=", "-=", "*=", "/=", "%=", "**=", "<<=", ">>=", ">>>=", "&=", "|=", "^=", "&&=",
    "||=", "??="].map p)

/-- One expression or several with commas between them. -/
def expressions : Form :=
  .chain (.rule .expression) (extended "sequence" [many1 (.seq (p ",") (.rule .expression))])

/-- An expression without commas. -/
def expression : Form :=
  oneOf [
    .rule .arrow,
    phrase "yield" [kw "yield", oneOf [.seq (p "*") (.rule .expression),
      .seq (.token .sameLine) (.rule .expression), .empty]],
    phrase "assignment" [oneOf [.rule .objectPattern, .rule .arrayPattern], p "=", .rule .expression],
    .chain (.rule .conditional) (extended "assignment" [assignment, .rule .expression])]

/-- A condition with two values. A value in front of the colon may look like an arrow function
whose result type follows; where this does not fit, it is read without one. -/
def conditional : Form :=
  .chain (.rule (.binary 0)) (oneOf [
    extended "ternary" [p "?", .rule .expression, p ":", .rule .expression],
    extended "ternary" [p "?", .rule (.binary 0), p ":", .rule .expression]])

/-- The operators of one level. -/
def binary (d : Dialect) (level : Nat) : Form :=
  match binaryLevels[level]? with
  | none => .rule .power
  | some ops =>
    let next : Form := .rule (.binary (level + 1))
    let ascribed (w : String) : Form :=
      extended "ascription" [.token .sameLine, kw w, oneOf [kw "const", .rule .type]]
    .chain next (oneOf (ops.map (fun o => extended "binary" [operator o, next]) ++
      if level == relationLevel then typedOnly d [ascribed "as", ascribed "satisfies"] else []))

/-- Powers associate to the right. -/
def power : Form := .chain (.rule .unary) (extended "binary" [p "**", .rule .power])

/-- Operators in front of an operand. -/
def unary (d : Dialect) : Form :=
  oneOf ([
    phrase "unary" [oneOf ((["!", "~", "+", "-"].map p) ++ (["typeof", "void", "delete"].map kw)),
      .rule .unary],
    phrase "update" [oneOf [p "++", p "--"], .rule .unary],
    phrase "await" [kw "await", .rule .unary]] ++
    (if d.hasTypes && !d.hasMarkup then
      [phrase "assertion" [g "<", oneOf [kw "const", .rule .type], g ">", .rule .unary]]
    else []) ++ [.rule .postfixed])

/-- An operand and the increments after it. -/
def postfixed : Form :=
  .chain (.rule .leftHand) (extended "update" [.token .sameLine, oneOf [p "++", p "--"]])

/-- The steps from an object to one of its members. -/
def memberSteps : List Form :=
  [extended "member" [oneOf [p ".", p "?."], oneOf [.token .word, .token .privateName]],
   extended "subscript" [opt (p "?."), p "[", .rule .expressions, p "]"]]

/-- Members, calls and templates after a primary expression. -/
def leftHand (d : Dialect) : Form :=
  .chain (.rule .primary) (oneOf (memberSteps ++ [
    extended "call" [opt (p "?."), .rule .arguments],
    extended "call" [.rule .template]] ++ typedOnly d [
    extended "call" [opt (p "?."), .rule .typeArguments,
      oneOf [.rule .arguments, .rule .template]],
    extended "instantiation" [.rule .typeArguments,
      .ahead true (oneOf [p ";", p ")", p ",", p "]", p "\x7d", .token .endOfInput])],
    extended "nonNull" [.token .sameLine, p "!"]]))

/-- What `new` is applied to. -/
def constructorOf : Form := .chain (.rule .primary) (oneOf memberSteps)

/-- The smallest expressions. -/
def primary (d : Dialect) : Form :=
  oneOf ([
    .rule .functionExpression,
    .rule .classExpression,
    phrase "new" [kw "new", oneOf [.seq (p ".") (.token .word),
      sequence [.rule .constructorOf, opt (.rule .typeArguments), opt (.rule .arguments)]]],
    phrase "import" [kw "import", oneOf [.seq (p ".") (.token .word), .ahead true (p "(")]],
    .token .identifier] ++
    (["this", "super", "null", "true", "false"].map kw) ++ [
    .node .parenthesized (sequence [p "(", .rule .expressions,
      ifTyped d (opt (.rule .typeLabel)), p ")"]),
    phrase "array" [p "[", .many (p ","), opt (sequence [
      oneOf [phrase "spread" [p "...", .rule .expression], .rule .expression],
      .many (sequence [many1 (p ","),
        oneOf [phrase "spread" [p "...", .rule .expression], .rule .expression]]),
      .many (p ",")]), p "]"],
    .rule .object,
    .token .number,
    .token .string,
    .rule .template,
    .token .regex,
    .token .privateName] ++
    (if d.hasMarkup then [.rule .markup] else []))

/-- The arguments of a call. -/
def arguments : Form :=
  .node .arguments (sequence [p "(",
    commaList (oneOf [phrase "spread" [p "...", .rule .expression], .rule .expression]), p ")"])

/-- A template with its substitutions. -/
def template : Form :=
  phrase "template" [g "\x60", .many (oneOf [.token .templateText,
    phrase "substitution" [.token (.tight "$\x7b"), .rule .expressions, p "\x7d"]]),
    .token (.tight "\x60")]

/-! ## Functions -/

/-- An arrow function: parameters, the arrow and a body. -/
def arrow : Form :=
  let rest : Form := .seq (p "=>") (oneOf [.rule (.body true), .rule .expression])
  .node .arrowFunction (oneOf [
    sequence [kw "async", .token .sameLine, .token .identifier, rest],
    sequence [kw "async", .token .sameLine, .rule .signature, rest],
    sequence [.token .identifier, rest],
    sequence [.rule .signature, rest]])

/-- A function or generator expression. -/
def functionExpression : Form :=
  let rest (star : List Form) : Form :=
    sequence ([opt (.seq (kw "async") (.token .sameLine)), kw "function"] ++ star ++
      [opt (.field .name (.token .identifier)), .rule .signature, .rule (.body true)])
  .alt (.node .functionExpression (rest [])) (.node (.phrase "generator") (rest [p "*"]))

/-- Type parameters, parameters and the result type. -/
def signature (d : Dialect) : Form :=
  sequence [ifTyped d (opt (.rule .typeParameters)), .rule .parameters,
    ifTyped d (opt (sequence [p ":", .rule .type]))]

/-- The parameters of a function. -/
def parameters (d : Dialect) : Form :=
  let annotated (e : Form) : Form :=
    sequence [e, ifTyped d (opt (p "?")), ifTyped d (opt (.rule .typeLabel))]
  let modifier : Form :=
    sequence [oneOf (["public", "private", "protected", "override", "readonly"].map kw),
      .ahead true (oneOf [.token .word, p "\x7b", p "["])]
  let parameter : Form :=
    phrase "parameter" [.many (.rule .decorator), ifTyped d (.many modifier), opt (p "..."),
      annotated (oneOf ([.rule .pattern] ++ typedOnly d [kw "this"])),
      opt (.seq (p "=") (.rule .expression))]
  phrase "parameters" [p "(", commaList parameter, p ")"]

/-! ## Objects -/

/-- The name of a property. -/
def propertyName : Form :=
  oneOf [.token .word, .token .string, .token .number, .token .privateName,
    phrase "computed" [p "[", .rule .expression, p "]"]]

/-- A word in front of a member that is not itself the name of the member. -/
def modifier (w : String) : Form :=
  .seq (kw w) (.ahead false
    (oneOf (["(", "=", ";", "\x7d", ":", "?", "!", ",", "<"].map p ++ [.token .endOfInput])))

/-- A member of an object literal. -/
def objectMember : Form :=
  oneOf [
    phrase "spread" [p "...", .rule .expression],
    phrase "method" [.many (oneOf (["async", "get", "set", "static"].map modifier)), opt (p "*"),
      .rule .propertyName, .rule .signature, .rule (.body false)],
    phrase "pair" [.rule .propertyName, p ":", .rule .expression],
    phrase "default" [.token .identifier, p "=", .rule .expression],
    .token .identifier]

/-- An object literal. -/
def object : Form := phrase "object" [p "\x7b", commaList (.rule .objectMember), p "\x7d"]

/-! ## Patterns -/

/-- What a value is bound or assigned to. -/
def pattern : Form :=
  oneOf [.rule .objectPattern, .rule .arrayPattern,
    .chain (oneOf [.token .identifier, kw "this"]) (oneOf memberSteps)]

/-- A pattern with an optional default. -/
def patternWithDefault : Form :=
  .chain (.rule .pattern) (extended "default" [p "=", .rule .expression])

/-- The pattern of an object. -/
def objectPattern : Form :=
  phrase "objectPattern" [p "\x7b", commaList (oneOf [
    phrase "rest" [p "...", .rule .pattern],
    phrase "pair" [.rule .propertyName, p ":", patternWithDefault],
    phrase "default" [.token .identifier, p "=", .rule .expression],
    .token .identifier]), p "\x7d"]

/-- The pattern of an array. -/
def arrayPattern : Form :=
  let element : Form := oneOf [phrase "rest" [p "...", .rule .pattern], patternWithDefault]
  phrase "arrayPattern" [p "[", .many (p ","),
    opt (sequence [element, .many (sequence [many1 (p ","), element]), .many (p ",")]), p "]"]

/-! ## Markup -/

/-- The name of a tag. -/
def tagName : Form :=
  .seq (.token .markupName) (.many (.seq (oneOf [p ".", p ":"]) (.token .markupName)))

/-- An expression in braces. -/
def markupValue : Form :=
  phrase "markupValue" [p "\x7b",
    opt (oneOf [phrase "spread" [p "...", .rule .expression], .rule .expressions]), p "\x7d"]

/-- An attribute of a tag. -/
def tagAttribute : Form :=
  oneOf [.rule .markupValue, phrase "attribute" [tagName, opt (.seq (p "=")
    (oneOf [.token .markupString, .rule .markupValue, .rule .markup]))]]

/-- What stands between two tags. -/
def markupChild : Form := oneOf [.token .markupText, .rule .markupValue, .rule .markup]

/-- An element or a fragment. -/
def markup (d : Dialect) : Form :=
  phrase "markup" [g "<", oneOf [
    sequence [g ">", .many (.rule .markupChild), g "</", g ">"],
    sequence [tagName, ifTyped d (opt (.rule .typeArguments)), .many tagAttribute, oneOf [
      g "/>",
      sequence [g ">", .many (.rule .markupChild), g "</", tagName, g ">"]]]]]

end DocScope.Grammar.Form
