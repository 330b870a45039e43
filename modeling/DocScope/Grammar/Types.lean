import DocScope.Grammar.Rule

/-!
# Types of the script grammar

Types hold no functions, so their phrases need not be told apart.
-/

namespace DocScope.Grammar.Form

/-- A function type, a constructor type, a predicate or a type with an optional condition. -/
def type : Form :=
  let function : Form :=
    sequence [opt (.rule .typeParameters), .rule .parameters, p "=>", .rule .type]
  oneOf [
    function,
    sequence [opt (kw "abstract"), kw "new", function],
    sequence [kw "asserts", .token .sameLine, oneOf [.token .identifier, kw "this"],
      opt (.seq (kw "is") (.rule .type))],
    sequence [oneOf [.token .identifier, kw "this"], .token .sameLine, kw "is", .rule .type],
    sequence [.rule .typeUnion, opt (sequence [.token .sameLine, kw "extends", .rule .type, p "?",
      .rule .type, p ":", .rule .type])]]

/-- Unions and intersections. -/
def typeUnion : Form :=
  let intersection : Form :=
    sequence [opt (p "&"), .rule .typeOperator, .many (.seq (p "&") (.rule .typeOperator))]
  sequence [opt (p "|"), intersection, .many (.seq (p "|") intersection)]

/-- Operators in front of a type. -/
def typeOperator : Form :=
  let operand : Form := .ahead true (oneOf [.token .word, p "[", p "\x7b", p "(", .token .string])
  oneOf [
    sequence [oneOf (["keyof", "unique", "readonly"].map kw), operand, .rule .typeOperator],
    sequence [kw "infer", .token .identifier, opt (.seq (kw "extends") (.rule .typeUnion))],
    .rule .typeSuffix]

/-- A type with brackets after it. -/
def typeSuffix : Form :=
  .seq (.rule .typePrimary)
    (.many (sequence [.token .sameLine, p "[", opt (.rule .type), p "]"]))

/-- The smallest types. -/
def typePrimary : Form :=
  let entity : Form := .many (.seq (p ".") (.token .word))
  let element : Form :=
    sequence [opt (p "..."), oneOf [
      sequence [.token .identifier, opt (p "?"), p ":", .rule .type],
      sequence [.rule .type, opt (p "?")]]]
  oneOf [
    sequence [p "(", .rule .type, p ")"],
    sequence [p "[", commaList element, p "]"],
    .rule .objectType,
    .token .string,
    .token .number,
    sequence [p "-", .token .number],
    sequence [g "\x60", .many (oneOf [.token .templateText,
      sequence [.token (.tight "$\x7b"), .rule .type, p "\x7d"]]), .token (.tight "\x60")],
    sequence [kw "typeof", oneOf [
      sequence [kw "import", p "(", .token .string, p ")", entity],
      sequence [oneOf [.token .identifier, kw "this"], entity]],
      opt (.rule .typeArguments)],
    sequence [kw "import", p "(", .token .string, p ")", entity, opt (.rule .typeArguments)],
    sequence [.token .identifier, entity, opt (.seq (.token .sameLine) (.rule .typeArguments))],
    oneOf (["this", "void", "null", "true", "false"].map kw)]

/-- Arguments of a generic type or function. -/
def typeArguments : Form := sequence [g "<", commaList (.rule .type), g ">"]

/-- Parameters of a generic type or function. -/
def typeParameters : Form :=
  let parameter : Form :=
    sequence [.many (sequence [oneOf [kw "const", kw "in", kw "out"], .ahead true (.token .word)]),
      .token .identifier, opt (.seq (kw "extends") (.rule .type)), opt (.seq (p "=") (.rule .type))]
  sequence [g "<", commaList1 parameter, g ">"]

/-- A type after a colon. -/
def typeLabel : Form := .seq (p ":") (.rule .type)

/-- The name of a member of an object type. -/
def typeMemberName : Form :=
  oneOf [.token .word, .token .string, .token .number, .token .privateName,
    sequence [p "[", .rule .expression, p "]"]]

/-- A name in brackets with the type of the keys, as in `[key: string]: T` and `[K in T]: U`. -/
def indexSignature : Form :=
  let sign : Form := opt (oneOf [p "-", p "+"])
  sequence [sign, opt (kw "readonly"), p "[", .token .identifier,
    oneOf [.rule .typeLabel,
      sequence [kw "in", .rule .type, opt (.seq (kw "as") (.rule .type))]], p "]",
    sign, opt (p "?"), .rule .typeLabel]

/-- A member of an object type. -/
def typeMember : Form :=
  let modifier (w : String) : Form :=
    .seq (kw w) (.ahead false (oneOf (["(", "<", ":", "?", ";", ",", "\x7d"].map p)))
  oneOf [
    indexSignature,
    sequence [opt (kw "new"), .rule .signature],
    sequence [.many (oneOf (["readonly", "get", "set"].map modifier)), typeMemberName,
      opt (p "?"), oneOf [.rule .signature, opt (.rule .typeLabel)]]]

/-- An object type. -/
def objectType : Form :=
  let divider : Form := oneOf [p ",", semicolon false]
  sequence [oneOf [p "\x7b", g "\x7b|"], opt (oneOf [p ",", p ";"]),
    .many (.seq (.rule .typeMember) (oneOf [divider, .ahead true (p "\x7d")])), p "\x7d"]

end DocScope.Grammar.Form
