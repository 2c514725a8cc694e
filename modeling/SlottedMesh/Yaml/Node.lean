import SlottedMesh.Yaml.Token

/-!
# Documents of YAML

The tree that the tokens of a document describe: scalars, sequences and mappings.  What is left out,
such as a value after its colon, is the empty scalar.  A text holds one document at most, and none
is the same as an empty one.
-/

namespace SlottedMesh.Yaml

/-- A node of a document. -/
inductive Node where
  /-- A scalar with its text, and whether it was written without quotes. -/
  | scalar (text : String) (plain : Bool)
  /-- A sequence. -/
  | sequence (items : List Node)
  /-- A mapping, in the order in which it was written; a key may be there twice. -/
  | mapping (entries : List (Node × Node))

/-- The node that was left out. -/
def Node.empty : Node := .scalar "" true

instance : Inhabited Node := ⟨.empty⟩

/-- Read a part of a document from the tokens that are left. -/
abbrev Reader (α : Type) := List Token → Except SyntaxError (α × List Token)

namespace Node

/-- Whether the tokens go on with one of `stops`, or not at all. -/
def stopsAt (stops : List Token) : List Token → Bool
  | [] => true
  | t :: _ => t ∈ stops

mutual

/-- Read a node.  In a block, collections may be written by indentation; with `indentless`, the
entries of a sequence may stand right below the key.  `fuel` bounds how deep calls go. -/
def read (block indentless : Bool) : Nat → Reader Node
  | 0, _ => .error .unexpectedToken
  | fuel + 1, tokens =>
    match tokens with
    | .scalar text plain :: rest => .ok (.scalar text plain, rest)
    | .flowSequence :: rest => do
      let (items, rest) ← readFlowSequence true fuel rest
      return (.sequence items, rest)
    | .flowMapping :: rest => do
      let (entries, rest) ← readFlowMapping true fuel rest
      return (.mapping entries, rest)
    | .entry :: rest =>
      if indentless then do
        let (items, rest) ← readIndentless fuel (.entry :: rest)
        return (.sequence items, rest)
      else .error .unexpectedToken
    | .blockSequence :: rest =>
      if block then do
        let (items, rest) ← readBlockSequence fuel rest
        return (.sequence items, rest)
      else .error .unexpectedToken
    | .blockMapping :: rest =>
      if block then do
        let (entries, rest) ← readBlockMapping fuel rest
        return (.mapping entries, rest)
      else .error .unexpectedToken
    | _ => .error .unexpectedToken

/-- Read a node, or leave it out where one of `stops` comes. -/
def readUnless (stops : List Token) (block indentless : Bool) : Nat → Reader Node
  | 0, _ => .error .unexpectedToken
  | fuel + 1, tokens =>
    if stopsAt stops tokens then .ok (.empty, tokens) else read block indentless fuel tokens

/-- Read the entries of a block sequence, to its end. -/
def readBlockSequence : Nat → Reader (List Node)
  | 0, _ => .error .unexpectedToken
  | fuel + 1, tokens =>
    match tokens with
    | .blockEnd :: rest => .ok ([], rest)
    | .entry :: rest => do
      let (item, rest) ← readUnless [.entry, .blockEnd] true false fuel rest
      let (items, rest) ← readBlockSequence fuel rest
      return (item :: items, rest)
    | _ => .error .unexpectedToken

/-- Read the entries of a sequence that is not indented, as long as they come. -/
def readIndentless : Nat → Reader (List Node)
  | 0, _ => .error .unexpectedToken
  | fuel + 1, tokens =>
    match tokens with
    | .entry :: rest => do
      let (item, rest) ← readUnless [.entry, .key, .value, .blockEnd] true false fuel rest
      let (items, rest) ← readIndentless fuel rest
      return (item :: items, rest)
    | _ => .ok ([], tokens)

/-- Read the entries of a block mapping, to its end. -/
def readBlockMapping : Nat → Reader (List (Node × Node))
  | 0, _ => .error .unexpectedToken
  | fuel + 1, tokens =>
    match tokens with
    | .blockEnd :: rest => .ok ([], rest)
    | .key :: rest => do
      let (key, rest) ← readUnless [.key, .value, .blockEnd] true true fuel rest
      let (value, rest) ← readBlockValue fuel rest
      let (entries, rest) ← readBlockMapping fuel rest
      return ((key, value) :: entries, rest)
    | _ => .error .unexpectedToken

/-- Read the value of a block mapping's key, which may be left out with its colon. -/
def readBlockValue : Nat → Reader Node
  | 0, _ => .error .unexpectedToken
  | fuel + 1, tokens =>
    match tokens with
    | .value :: rest => readUnless [.key, .value, .blockEnd] true true fuel rest
    | _ => .ok (.empty, tokens)

/-- Read the items between square brackets, to the closing one.  A single pair is a mapping.  Where
its key is left out behind a question mark, the colon, comma or bracket that comes there stands for
the key: it neither begins the value nor ends the item or the sequence. -/
def readFlowSequence (first : Bool) : Nat → Reader (List Node)
  | 0, _ => .error .unexpectedToken
  | fuel + 1, tokens =>
    match tokens with
    | .flowSequenceEnd :: rest => .ok ([], rest)
    | _ => do
      let tokens ← readComma first tokens
      match tokens with
      | .flowSequenceEnd :: rest => return ([], rest)
      | .key :: rest =>
        let (key, rest) ←
          if stopsAt [.value, .comma, .flowSequenceEnd] rest then pure (.empty, rest.tail)
          else read false false fuel rest
        let (value, rest) ← readFlowValue .flowSequenceEnd fuel rest
        let (items, rest) ← readFlowSequence false fuel rest
        return (.mapping [(key, value)] :: items, rest)
      | _ =>
        let (item, rest) ← read false false fuel tokens
        let (items, rest) ← readFlowSequence false fuel rest
        return (item :: items, rest)

/-- Read the pairs between braces, to the closing one.  A key may stand alone or be left out. -/
def readFlowMapping (first : Bool) : Nat → Reader (List (Node × Node))
  | 0, _ => .error .unexpectedToken
  | fuel + 1, tokens =>
    match tokens with
    | .flowMappingEnd :: rest => .ok ([], rest)
    | _ => do
      let tokens ← readComma first tokens
      match tokens with
      | .flowMappingEnd :: rest => return ([], rest)
      | .key :: rest =>
        let (key, rest) ← readUnless [.value, .comma, .flowMappingEnd] false false fuel rest
        let (value, rest) ← readFlowValue .flowMappingEnd fuel rest
        let (entries, rest) ← readFlowMapping false fuel rest
        return ((key, value) :: entries, rest)
      | _ =>
        let (key, rest) ← read false false fuel tokens
        let (entries, rest) ← readFlowMapping false fuel rest
        return ((key, .empty) :: entries, rest)

/-- Read the value of a key between brackets that `close` closes; it may be left out with its
colon. -/
def readFlowValue (close : Token) : Nat → Reader Node
  | 0, _ => .error .unexpectedToken
  | fuel + 1, tokens =>
    match tokens with
    | .value :: rest => readUnless [.comma, close] false false fuel rest
    | _ => .ok (.empty, tokens)

/-- Pass over the comma between two items; none comes before the first. -/
def readComma (first : Bool) (tokens : List Token) : Except SyntaxError (List Token) :=
  if first then .ok tokens
  else match tokens with
    | .comma :: rest => .ok rest
    | _ => .error .unexpectedToken

end

/-- The document that the tokens describe.  Between two tokens calls go at most three deeper, so
that four for each token are enough. -/
def ofTokens? (tokens : List Token) : Except SyntaxError Node := do
  let (tokens, begun) := match tokens with
    | .documentStart :: rest => (rest, true)
    | _ => (tokens, false)
  let leftOut : Bool := match tokens with
    | [] => true
    | t :: _ => begun && (t = .documentStart || t = .documentEnd)
  let (node, rest) ← if leftOut then Except.ok (Node.empty, tokens)
    else read true false (4 * tokens.length + 4) tokens
  match rest.dropWhile (· = .documentEnd) with
  | [] => return node
  | _ => .error .unexpectedToken

/-- The document in a text. -/
def parse (text : String) : Except SyntaxError Node := tokenize text >>= ofTokens?

end Node

end SlottedMesh.Yaml
