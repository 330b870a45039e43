import DocScope.Docs.Entry
import DocScope.Source.Comment
import DocScope.Text.Lines

/-!
# Reading doc comments

The lines of a comment, freed from the gutter of asterisks, are free text up to the first tag, and
then blocks: a block starts at a line with a tag `@…` and takes in the lines up to the next one.
Every block is read on its own:

* the parameters are the blocks `@param`, `@arg` and `@argument`, in their order;
* the result is the last block `@returns` or `@return`;
* the examples are the blocks `@example`, in their order;
* the description is made of the blocks `@description` and `@desc`, or of the first paragraph of
  the free text where there is no such block.
-/

namespace DocScope.DocComment

/-! ## Lines and blocks -/

/-- A line without blanks in front, one asterisk and one space behind it. -/
def cleanLine (raw : List Char) : List Char :=
  let trimmed := Text.trimStart raw
  match trimmed with
  | '*' :: ' ' :: r => r
  | '*' :: r => r
  | _ => trimmed

/-- What a tag says. -/
inductive Tag where
  | param
  | returns
  | sample
  | description
  | other
deriving DecidableEq, Repr

/-- The meaning of the word behind the at sign. -/
def Tag.ofWord (w : List Char) : Tag :=
  if w = "param".toList || w = "arg".toList || w = "argument".toList then .param
  else if w = "returns".toList || w = "return".toList then .returns
  else if w = "example".toList then .sample
  else if w = "description".toList || w = "desc".toList then .description
  else .other

/-- A tag, the text behind it on its line, and the clean lines up to the next tag. -/
structure Block where
  tag : Tag
  rest : List Char
  lines : List (List Char)
deriving DecidableEq, Repr

/-- The tag a line starts with, and the text behind it. -/
def tagged? (line : List Char) : Option (Tag × List Char) :=
  match Text.trim line with
  | '@' :: r =>
    some (.ofWord (r.takeWhile (!Text.isBlank ·)),
      Text.trim ((r.dropWhile (!Text.isBlank ·)).drop 1))
  | _ => none

/-- Free text and the blocks after it. -/
def blocks : List (List Char) → List (List Char) × List Block
  | [] => ([], [])
  | l :: ls =>
    let (free, bs) := blocks ls
    match tagged? l with
    | some (tag, rest) => ([], ⟨tag, rest, free⟩ :: bs)
    | none => (l :: free, bs)

/-! ## Parts of an entry -/

/-- Texts with a space between neighbours. -/
def joinWords (ws : List (List Char)) : List Char := [' '].intercalate ws

/-- The trimmed lines that are not blank. -/
def filled (ls : List (List Char)) : List (List Char) := (ls.map Text.trim).filter (· ≠ [])

/-- The first paragraph of the free text. -/
def summary (free : List (List Char)) : List Char :=
  joinWords (((free.map Text.trim).dropWhile (· = [])).takeWhile (· ≠ []))

/-- The description: of the blocks for it, or else of the free text. -/
def description (free : List (List Char)) (bs : List Block) : List Char :=
  match bs.filter (·.tag = .description) with
  | [] => summary free
  | ds => Text.trim (joinWords (ds.flatMap fun b => b.rest :: filled b.lines))

/-- The text of a block: the rest of its first line and the filled lines after it. -/
def Block.text (b : Block) : List Char := joinWords ((b.rest :: filled b.lines).filter (· ≠ []))

/-- Reads a type in braces, which goes up to the first closing brace, and the blanks behind it. -/
def type? (s : List Char) : Option (List Char × List Char) :=
  match s with
  | '\x7b' :: r =>
    match r.dropWhile (· != '\x7d') with
    | _ :: rest => some (r.takeWhile (· != '\x7d'), Text.trimStart rest)
    | [] => none
  | _ => none

/-- Skips a hyphen and the blanks behind it. -/
def skipHyphen (s : List Char) : List Char :=
  match s with
  | '-' :: r => Text.trimStart r
  | s => s

/-- Reads the name of a parameter: a text in brackets, or everything up to the next blank. -/
def paramName? (s : List Char) : Option (List Char × List Char) :=
  let plain := s.takeWhile (!Text.isBlank ·)
  let word := if plain = [] then none else some (plain, s.dropWhile (!Text.isBlank ·))
  match s with
  | '[' :: r =>
    match r.dropWhile (· != ']') with
    | _ :: rest => some ('[' :: r.takeWhile (· != ']') ++ [']'], rest)
    | [] => word
  | _ => word

/-- A name without brackets around it and without a default behind an equals sign. -/
def bareName (name : List Char) : List Char :=
  Text.trim ((Text.dropEnd (· == ']') (name.dropWhile (· == '['))).takeWhile (· != '='))

/-- Reads a name and a description behind it. -/
def namedParam? (type s : List Char) : Option ParamDoc :=
  (paramName? s).map fun (name, r) =>
    { name := .ofList (bareName name)
      type := .ofList (Text.trim type)
      description := .ofList (Text.trim (skipHyphen (Text.trimStart r))) }

/-- The parameter a text describes. Where no name follows the type, the text has no type. -/
def param? (s : List Char) : Option ParamDoc :=
  match type? s with
  | some (t, r) => (namedParam? t r).or (namedParam? [] s)
  | none => namedParam? [] s

/-- The result a text describes. -/
def returnDoc (s : List Char) : ReturnDoc :=
  let (t, r) := (type? s).getD ([], s)
  { type := .ofList (Text.trim t), description := .ofList (Text.trim (skipHyphen r)) }

/-- The number of blanks in front. -/
def indentOf (l : List Char) : Nat := (l.takeWhile Text.isBlank).length

/-- The least of some numbers, zero if there are none. -/
def least : List Nat → Nat
  | [] => 0
  | [n] => n
  | n :: ns => min n (least ns)

/-- Drops up to `n` blanks in front. -/
def stripIndent : Nat → List Char → List Char
  | 0, l => l
  | _ + 1, [] => []
  | n + 1, c :: r => if Text.isBlank c then stripIndent n r else c :: r

/-- The least indentation of the lines that are not blank. -/
def commonIndent (ls : List (List Char)) : Nat :=
  least ((ls.filter (!Text.allBlank ·)).map indentOf)

/-- Lines without their common indentation and without line breaks at the ends. -/
def dedent (ls : List (List Char)) : List Char :=
  Text.dropEnd (· == '\n')
    ((Text.joinLines (ls.map (stripIndent (commonIndent ls)))).dropWhile (· == '\n'))

/-- The lines of an example. -/
def Block.exampleLines (b : Block) : List (List Char) :=
  (if b.rest = [] then [] else [b.rest]) ++ b.lines.map Text.trimEnd

/-- The blocks with the given tag. -/
def ofTag (tag : Tag) (bs : List Block) : List Block := bs.filter (·.tag = tag)

/-- What free text and blocks say. -/
def entryOf (name file : String) (free : List (List Char)) (bs : List Block) : DocEntry where
  name := name
  description := .ofList (description free bs)
  params := (ofTag .param bs).filterMap fun b => param? b.text
  returns := (ofTag .returns bs).getLast?.map fun b => returnDoc b.text
  examples := (((ofTag .sample bs).map fun b => dedent b.exampleLines).filter (· ≠ [])).map
    String.ofList
  file := file

/-- What a comment with the given value says about the declaration `name` of `file`. -/
def parseValue (name file : String) (value : List Char) : DocEntry :=
  let (free, bs) := blocks ((Text.lines value).map cleanLine)
  entryOf name file free bs

/-- What a comment says about the declaration `name` of `file`. -/
def parse (name file : String) (c : Comment) : DocEntry := parseValue name file c.value.toList

end DocScope.DocComment
