import DocScope.Yaml.Scan

/-!
# Nodes of YAML

A document is a tree of scalars, sequences and mappings. An alias stands for the node with its
anchor, which may be any node above it, so aliases are resolved by number in the table of a
document.

An anchor gets as its number the count of the different names in use so far. A name that is used
again gets a new number, and when two nodes get one number, the later node counts.

* `Node`, `Document` : the trees and their tables;
* `Document.ofTokens?` : the one document of a list of tokens;
* `Document.parse?` : the document of a text, `none` if the text is not a single document.
-/

namespace DocScope.Yaml

/-- A node of a document. -/
inductive Node where
  | scalar (tag : Option (List Char)) (style : ScalarStyle) (text : List Char)
  | sequence (tag : Option (List Char)) (items : List Node)
  | mapping (tag : Option (List Char)) (pairs : List (Node × Node))
  /-- The node with the anchor of a number. -/
  | alias (number : Nat)

namespace Node

/-- What stands for nothing. -/
def empty : Node := .scalar none .plain []

end Node

/-- A node with the nodes that have an anchor, the last one first. -/
structure Document where
  root : Node
  anchored : List (Nat × Node)

namespace Document

/-- The node that an alias stands for; other nodes stand for themselves. -/
def resolve (d : Document) : Node → Node
  | .alias n => (d.anchored.lookup n).getD .empty
  | node => node

end Document

/-! ## Reading nodes -/

/-- The tokens that are left, and what was said before them. -/
structure Reading where
  tokens : List Token
  /-- The handles of tags and what they stand for. -/
  handles : List (List Char × List Char)
  /-- The names of anchors with their numbers. -/
  names : List (List Char × Nat)
  /-- The nodes with an anchor. -/
  anchored : List (Nat × Node)

namespace Reading

/-- Moves behind the next token. -/
def advance (r : Reading) : Reading := { r with tokens := r.tokens.tail }

/-- The next token. -/
def peek (r : Reading) : Option Token := r.tokens.head?

/-- Whether the next token is one of the given ones. -/
def seesAny (r : Reading) (ts : List Token) : Bool := r.peek.any ts.contains

/-- Gives a name to the node that starts here. -/
def bindName (r : Reading) (name : List Char) : Nat × Reading :=
  let number := r.names.length
  (number, { r with names := (name, number) :: r.names.filter (·.1 ≠ name) })

/-- Enters a node into the table. -/
def enter (r : Reading) (number : Option Nat) (node : Node) : Reading :=
  match number with
  | some n => { r with anchored := (n, node) :: r.anchored }
  | none => r

end Reading

/-- The handles that every document has. -/
def standardHandles : List (List Char × List Char) :=
  [(['!'], ['!']), (['!', '!'], "tag:yaml.org,2002:".toList)]

/-- The tag that a handle and a suffix stand for: `none` for an unknown handle, and no tag for a lone
exclamation mark. -/
def tagOf? (handles : List (List Char × List Char)) (handle suffix : List Char) :
    Option (List Char) :=
  if handle = [] then some suffix else (handles.lookup handle).map (· ++ suffix)

/-- An anchor and a tag in front of a node. -/
structure Properties where
  anchor : Option (List Char)
  tag : Option (List Char)

/-- Whether neither is there. -/
def Properties.isEmpty (p : Properties) : Bool := p.anchor.isNone && p.tag.isNone

/-- Reads the anchor of a node. -/
def readAnchor (r : Reading) : Option (List Char) × Reading :=
  match r.peek with
  | some (.anchor n) => (some n, r.advance)
  | _ => (none, r)

/-- Reads the tag of a node; `none` for an unknown handle. -/
def readNodeTag (r : Reading) : Option (Option (List Char) × Reading) :=
  match r.peek with
  | some (.tag h s) => (tagOf? r.handles h s).map fun t => (some t, r.advance)
  | _ => some (none, r)

/-- Reads the anchor and the tag of a node, in either order. -/
def readProperties (r : Reading) : Option (Properties × Reading) :=
  match readAnchor r with
  | (some a, r) => (readNodeTag r).map fun (t, r) => (⟨some a, t⟩, r)
  | (none, r) =>
    (readNodeTag r).map fun (t, r) =>
      if t.isSome then let (a, r) := readAnchor r; (⟨a, t⟩, r) else (⟨none, none⟩, r)

/-- Where a node may stand. -/
inductive Context where
  /-- Inside of brackets. -/
  | flow
  /-- In a block. -/
  | block
  /-- As a key or a value of a block, where a sequence need not be indented. -/
  | blockOrEntries
deriving DecidableEq, Repr

/-- The tag of a scalar; a lone exclamation mark is none. -/
def scalarTag (tag : Option (List Char)) : Option (List Char) :=
  if tag = some ['!'] then none else tag

mutual

/-- Reads a node. An anchor or a tag with nothing behind it makes an empty scalar. -/
def readNode : Nat → Context → Reading → Option (Node × Reading)
  | 0, _, _ => none
  | fuel + 1, ctx, r =>
    match r.peek with
    | some (.alias n) => (r.names.lookup n).map fun i => (.alias i, r.advance)
    | _ =>
      match readProperties r with
      | none => none
      | some (p, r) =>
        let (number, r) :=
          match p.anchor with
          | some n => let (i, r) := r.bindName n; (some i, r)
          | none => (none, r)
        let bare : Option (Node × Reading) :=
          if p.isEmpty then none else some (.scalar p.tag .plain [], r)
        let node : Option (Node × Reading) :=
          match r.peek with
          | some (.scalar t style) => some (.scalar (scalarTag p.tag) style t, r.advance)
          | some .flowSequenceStart =>
            (readFlowItems fuel true r.advance).map fun (ns, r) => (.sequence p.tag ns, r)
          | some .flowMappingStart =>
            (readFlowPairs fuel true r.advance).map fun (ps, r) => (.mapping p.tag ps, r)
          | some .blockSequenceStart =>
            if ctx = .flow then bare
            else (readItems fuel r.advance).map fun (ns, r) => (.sequence p.tag ns, r)
          | some .blockMappingStart =>
            if ctx = .flow then bare
            else (readPairs fuel r.advance).map fun (ps, r) => (.mapping p.tag ps, r)
          | some .blockEntry =>
            if ctx = .blockOrEntries then
              (readEntries fuel r).map fun (ns, r) => (.sequence p.tag ns, r)
            else bare
          | _ => bare
        node.map fun (n, r) => (n, r.enter number n)

/-- Reads the items of an indented sequence. -/
def readItems : Nat → Reading → Option (List Node × Reading)
  | 0, _ => none
  | fuel + 1, r =>
    match r.peek with
    | some .blockEntry =>
      match readOptional fuel .block [.blockEntry, .blockEnd] r.advance with
      | none => none
      | some (n, r) => (readItems fuel r).map fun (ns, r) => (n :: ns, r)
    | some .blockEnd => some ([], r.advance)
    | _ => none

/-- Reads the items of a sequence that is not indented. -/
def readEntries : Nat → Reading → Option (List Node × Reading)
  | 0, _ => none
  | fuel + 1, r =>
    match r.peek with
    | some .blockEntry =>
      match readOptional fuel .block [.blockEntry, .key, .value, .blockEnd] r.advance with
      | none => none
      | some (n, r) => (readEntries fuel r).map fun (ns, r) => (n :: ns, r)
    | _ => some ([], r)

/-- Reads the pairs of an indented mapping. -/
def readPairs : Nat → Reading → Option (List (Node × Node) × Reading)
  | 0, _ => none
  | fuel + 1, r =>
    match r.peek with
    | some .key =>
      match readOptional fuel .blockOrEntries [.key, .value, .blockEnd] r.advance with
      | none => none
      | some (k, r) =>
        let value :=
          match r.peek with
          | some .value => readOptional fuel .blockOrEntries [.key, .value, .blockEnd] r.advance
          | _ => some (.empty, r)
        match value with
        | none => none
        | some (v, r) => (readPairs fuel r).map fun (ps, r) => ((k, v) :: ps, r)
    | some .blockEnd => some ([], r.advance)
    | _ => none

/-- Reads the items of a sequence in brackets. -/
def readFlowItems : Nat → (first : Bool) → Reading → Option (List Node × Reading)
  | 0, _, _ => none
  | fuel + 1, first, r =>
    match r.peek with
    | some .flowSequenceEnd => some ([], r.advance)
    | some t =>
      if !first && t ≠ .flowEntry then none
      else
        let r := if first then r else r.advance
        match r.peek with
        | some .flowSequenceEnd => some ([], r.advance)
        | some .key =>
          match readFlowPair fuel r.advance with
          | none => none
          | some (p, r) =>
            (readFlowItems fuel false r).map fun (ns, r) => (.mapping none [p] :: ns, r)
        | _ =>
          match readNode fuel .flow r with
          | none => none
          | some (n, r) => (readFlowItems fuel false r).map fun (ns, r) => (n :: ns, r)
    | none => none

/-- Reads the only pair of a mapping that is an item of a sequence in brackets. A token that ends an
absent key is passed over. -/
def readFlowPair : Nat → Reading → Option ((Node × Node) × Reading)
  | 0, _ => none
  | fuel + 1, r =>
    let key :=
      if r.seesAny [.value, .flowEntry, .flowSequenceEnd] then some (.empty, r.advance)
      else readNode fuel .flow r
    match key with
    | none => none
    | some (k, r) =>
      let value :=
        match r.peek with
        | some .value => readOptional fuel .flow [.flowEntry, .flowSequenceEnd] r.advance
        | _ => some (.empty, r)
      value.map fun (v, r) => ((k, v), r)

/-- Reads the pairs of a mapping in brackets. -/
def readFlowPairs : Nat → (first : Bool) → Reading → Option (List (Node × Node) × Reading)
  | 0, _, _ => none
  | fuel + 1, first, r =>
    match r.peek with
    | some .flowMappingEnd => some ([], r.advance)
    | some t =>
      if !first && t ≠ .flowEntry then none
      else
        let r := if first then r else r.advance
        match r.peek with
        | some .flowMappingEnd => some ([], r.advance)
        | some .key =>
          match readOptional fuel .flow [.value, .flowEntry, .flowMappingEnd] r.advance with
          | none => none
          | some (k, r) =>
            let value :=
              match r.peek with
              | some .value => readOptional fuel .flow [.flowEntry, .flowMappingEnd] r.advance
              | _ => some (.empty, r)
            match value with
            | none => none
            | some (v, r) => (readFlowPairs fuel false r).map fun (ps, r) => ((k, v) :: ps, r)
        | _ =>
          match readNode fuel .flow r with
          | none => none
          | some (k, r) => (readFlowPairs fuel false r).map fun (ps, r) => ((k, .empty) :: ps, r)
    | none => none

/-- Reads a node, or nothing in front of one of the given tokens. -/
def readOptional : Nat → Context → List Token → Reading → Option (Node × Reading)
  | 0, _, _, _ => none
  | fuel + 1, ctx, ends, r =>
    if r.seesAny ends then some (.empty, r) else readNode fuel ctx r

end

/-! ## Documents -/

/-- What the directives of a document say. -/
structure Directives where
  version : Bool
  handles : List (List Char × List Char)

/-- Reads directives. Two versions, a version other than 1.1 and 1.2, and two meanings of a handle
are faults. -/
def readDirectives : List Token → Directives → Option (Directives × List Token)
  | .version major minor :: ts, d =>
    if d.version || major ≠ 1 || (minor ≠ 1 && minor ≠ 2) then none
    else readDirectives ts { d with version := true }
  | .handle h m :: ts, d =>
    if (d.handles.lookup h).isSome then none
    else readDirectives ts { d with handles := (h, m) :: d.handles }
  | ts, d => some (d, ts)

/-- Whether tokens announce a document: a directive or the marker of its start. -/
def announcesDocument : List Token → Bool
  | .version _ _ :: _ => true
  | .handle _ _ :: _ => true
  | .documentStart :: _ => true
  | _ => false

/-- Reads the content of a document and the markers of its end. -/
def readContent (explicit : Bool) (handles : List (List Char × List Char)) (ts : List Token) :
    Option (Document × List Token) :=
  let r : Reading := ⟨ts, handles ++ standardHandles, [], []⟩
  let absent := explicit && (ts.isEmpty || announcesDocument ts || ts.head? = some .documentEnd)
  let content := if absent then some (.empty, r) else readNode (4 * ts.length + 4) .block r
  content.map fun (n, r) => (⟨n, r.anchored⟩, r.tokens.dropWhile (· = .documentEnd))

/-- The only document of a list of tokens. Without any token it is empty. -/
def Document.ofTokens? (ts : List Token) : Option Document :=
  if ts = [] then some ⟨.empty, []⟩
  else
    let content :=
      if announcesDocument ts then
        match readDirectives ts ⟨false, []⟩ with
        | some (d, .documentStart :: ts) => readContent true d.handles ts
        | _ => none
      else readContent false [] ts
    match content with
    | some (d, []) => some d
    | _ => none

/-- The document of a text; `none` if the text is not a single document. -/
def Document.parse? (text : String) : Option Document :=
  (tokens? text.toList).bind Document.ofTokens?

end DocScope.Yaml
