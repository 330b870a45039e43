/-!
# Tokens of YAML

The indicators of a YAML text, with marks for what is said by indentation alone: where a block
collection starts and ends, and where a key starts that is not announced by a question mark.
-/

namespace DocScope.Yaml

/-- How a scalar is written. -/
inductive ScalarStyle where
  | plain
  | singleQuoted
  | doubleQuoted
  | literal
  | folded
deriving DecidableEq, Repr

/-- What a YAML text is made of. -/
inductive Token where
  /-- `%YAML`. -/
  | version (major minor : Nat)
  /-- `%TAG`: the handle and what it stands for. -/
  | handle (name meaning : List Char)
  /-- `---`. -/
  | documentStart
  /-- `...`. -/
  | documentEnd
  | blockSequenceStart
  | blockMappingStart
  | blockEnd
  | flowSequenceStart
  | flowSequenceEnd
  | flowMappingStart
  | flowMappingEnd
  | blockEntry
  | flowEntry
  | key
  | value
  | alias (name : List Char)
  | anchor (name : List Char)
  | tag (handle suffix : List Char)
  | scalar (text : List Char) (style : ScalarStyle)
deriving DecidableEq, Repr

end DocScope.Yaml
