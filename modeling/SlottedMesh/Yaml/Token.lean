import SlottedMesh.Yaml.Text

/-!
# Tokens of YAML

The tokens that a document consists of.  Block collections have no brackets: a collection begins
where a line is indented further than the one around it and ends where the indentation falls back,
and the scanner puts tokens there as if brackets had been written.

That a word is a key shows only at the colon behind it.  So the scanner remembers where a key may
have begun, in each bracket that is open, and puts the token for it there when the colon comes.
-/

namespace SlottedMesh.Yaml

/-- A token of a document. -/
inductive Token where
  /-- A block sequence begins. -/
  | blockSequence
  /-- A block mapping begins. -/
  | blockMapping
  /-- A block collection ends. -/
  | blockEnd
  /-- An opening square bracket. -/
  | flowSequence
  /-- A closing square bracket. -/
  | flowSequenceEnd
  /-- An opening brace. -/
  | flowMapping
  /-- A closing brace. -/
  | flowMappingEnd
  /-- The dash before an entry of a block sequence. -/
  | entry
  /-- A comma. -/
  | comma
  /-- A key comes. -/
  | key
  /-- A value comes. -/
  | value
  /-- A scalar with its text, and whether it was written without quotes. -/
  | scalar (text : String) (plain : Bool)
  /-- Three dashes. -/
  | documentStart
  /-- Three dots. -/
  | documentEnd
deriving DecidableEq

/-- A place where a key may have begun. -/
structure KeyPlace where
  /-- How many tokens came before. -/
  position : Nat
  /-- Where in the text. -/
  mark : Mark
  /-- Nothing but a key can stand there. -/
  required : Bool

/-- A scanner on its way through a text. -/
structure Scanner where
  /-- What is left to read. -/
  rest : Rest
  /-- The tokens so far. -/
  tokens : Array Token
  /-- The columns of the open block collections, the innermost first. -/
  indents : List Nat
  /-- A key may begin here. -/
  keyAllowed : Bool
  /-- Where a key may have begun, in the innermost bracket. -/
  keyPlace : Option KeyPlace
  /-- The same for the brackets around it, one for each open bracket. -/
  outerPlaces : List (Option KeyPlace)

namespace Scanner

/-- A scanner at the beginning of a text. -/
def start (chars : List Char) : Scanner := ⟨⟨chars, default⟩, #[], [], true, none, []⟩

/-- Whether a bracket is open. -/
def inFlow (s : Scanner) : Bool := !s.outerPlaces.isEmpty

/-- The column that a block collection must be beyond to begin inside the innermost one. -/
def minColumn (s : Scanner) : Nat :=
  match s.indents with
  | [] => 0
  | column :: _ => column + 1

/-- Add a token. -/
def emit (s : Scanner) (t : Token) : Scanner := { s with tokens := s.tokens.push t }

/-- Pass over the next character, which is not a line break. -/
def skip (s : Scanner) : Scanner :=
  match s.rest.chars with
  | [] => s
  | c :: cs => { s with rest := ⟨cs, s.rest.mark.next c⟩ }

/-! ## Between tokens -/

/-- Pass over blanks, comments and line ends.  A line end allows a key outside brackets, and where a
key is allowed the line must not be indented with tabs.  A byte order mark may begin any line; it
takes a column of it. -/
def passGap (inFlow : Bool) : List Char → Mark → (inComment keyAllowed : Bool) → Rest × Bool
  | [], m, _, keyAllowed => (⟨[], m⟩, keyAllowed)
  | c :: cs, m, inComment, keyAllowed =>
    if isBreak c then passGap inFlow cs m.newline false (keyAllowed || !inFlow)
    else if inComment then passGap inFlow cs (m.next c) true keyAllowed
    else if c = ' ' || (c = '\t' && (inFlow || !keyAllowed)) then
      passGap inFlow cs (m.next c) false keyAllowed
    else if c = '\ufeff' ∧ m.column = 0 then passGap inFlow cs (m.next c) false keyAllowed
    else if c = '#' then passGap inFlow cs (m.next c) true keyAllowed
    else (⟨c :: cs, m⟩, keyAllowed)

/-- Go on to the next token. -/
def toNextToken (s : Scanner) : Scanner :=
  let (rest, keyAllowed) := passGap s.inFlow s.rest.chars s.rest.mark false s.keyAllowed
  { s with rest, keyAllowed }

/-! ## Indentation -/

/-- End the block collections that are indented further than `column`; all of them if there is no
column.  Inside brackets indentation says nothing. -/
def unroll (s : Scanner) (column : Option Nat) : Scanner :=
  if s.inFlow then s
  else
    let closes (indent : Nat) : Bool := column.all (· < indent)
    { s with
      tokens := s.tokens ++ (s.indents.takeWhile closes).map fun _ => Token.blockEnd
      indents := s.indents.dropWhile closes }

/-- Begin a block collection at `column` if that is further in than the innermost one; its token
goes before the token at `position`. -/
def roll (s : Scanner) (column position : Nat) (t : Token) : Scanner :=
  if s.inFlow ∨ column < s.minColumn then s
  else { s with
    tokens := s.tokens.insertIdxIfInBounds position t
    indents := column :: s.indents }

/-! ## Keys -/

/-- Nothing that began before can be a key any more. -/
def dropKey (s : Scanner) : Except SyntaxError Scanner :=
  if s.keyPlace.any (·.required) then .error .keyWithoutColon
  else .ok { s with keyPlace := none }

/-- What comes next may be a key. -/
def noteKey (s : Scanner) : Except SyntaxError Scanner :=
  if s.keyAllowed then do
    let s ← s.dropKey
    let required := !s.inFlow && s.indents.head? = some s.rest.mark.column
    return { s with keyPlace := some ⟨s.tokens.size, s.rest.mark, required⟩ }
  else .ok s

/-- How many bytes a key may take. -/
def maxKeyLength : Nat := 1024

/-- Whether a key that began there can have its colon here: it fits on a line and is not too
long. -/
def isCurrent (m : Mark) (p : KeyPlace) : Bool :=
  p.mark.line = m.line && m.offset ≤ p.mark.offset + maxKeyLength

/-- Forget the places whose keys would be too long by now. -/
def expireKeys (s : Scanner) : Except SyntaxError Scanner :=
  let expired (p : Option KeyPlace) : Bool := p.any fun p => p.required && !isCurrent s.rest.mark p
  if (s.keyPlace :: s.outerPlaces).any expired then .error .keyWithoutColon
  else .ok { s with
    keyPlace := s.keyPlace.filter (isCurrent s.rest.mark)
    outerPlaces := s.outerPlaces.map (·.filter (isCurrent s.rest.mark)) }

/-! ## Tokens -/

/-- Three dashes or dots. -/
def scanDocumentMark (s : Scanner) (t : Token) : Except SyntaxError Scanner := do
  let s ← (s.unroll none).dropKey
  return { (s.skip.skip.skip.emit t) with keyAllowed := false }

/-- An opening bracket. -/
def scanOpen (s : Scanner) (t : Token) : Except SyntaxError Scanner := do
  let s ← s.noteKey
  return { (s.skip.emit t) with
    keyAllowed := true, keyPlace := none, outerPlaces := s.keyPlace :: s.outerPlaces }

/-- A closing bracket. -/
def scanClose (s : Scanner) (t : Token) : Except SyntaxError Scanner := do
  let s ← s.dropKey
  return { (s.skip.emit t) with
    keyAllowed := false
    keyPlace := s.outerPlaces.head?.getD none
    outerPlaces := s.outerPlaces.tail }

/-- A comma. -/
def scanComma (s : Scanner) : Except SyntaxError Scanner := do
  let s ← s.dropKey
  return { (s.skip.emit .comma) with keyAllowed := true }

/-- The dash of an entry. -/
def scanEntry (s : Scanner) : Except SyntaxError Scanner :=
  if !s.inFlow && !s.keyAllowed then .error .misplacedIndicator
  else do
    let s ← (s.roll s.rest.mark.column s.tokens.size .blockSequence).dropKey
    return { (s.skip.emit .entry) with keyAllowed := true }

/-- The question mark before a key. -/
def scanKey (s : Scanner) : Except SyntaxError Scanner :=
  if !s.inFlow && !s.keyAllowed then .error .misplacedIndicator
  else do
    let s ← (s.roll s.rest.mark.column s.tokens.size .blockMapping).dropKey
    return { (s.skip.emit .key) with keyAllowed := !s.inFlow }

/-- The colon before a value: what began at the remembered place was a key. -/
def scanValue (s : Scanner) : Except SyntaxError Scanner :=
  match s.keyPlace with
  | some p =>
    let s := { s with tokens := s.tokens.insertIdxIfInBounds p.position .key }
    let s := s.roll p.mark.column p.position .blockMapping
    .ok { (s.skip.emit .value) with keyAllowed := false, keyPlace := none }
  | none =>
    if !s.inFlow && !s.keyAllowed then .error .misplacedIndicator
    else
      let s := s.roll s.rest.mark.column s.tokens.size .blockMapping
      .ok { (s.skip.emit .value) with keyAllowed := !s.inFlow }

/-- A scalar in quotes. -/
def scanQuoted (s : Scanner) (quote : Char) : Except SyntaxError Scanner := do
  let s ← s.noteKey
  let s := s.skip
  let (text, rest) ← readQuoted quote s.rest.chars s.rest.mark .text [] .none
  return { (s.emit (.scalar text false)) with rest, keyAllowed := false }

/-- A scalar without quotes. -/
def scanPlain (s : Scanner) : Except SyntaxError Scanner := do
  let s ← s.noteKey
  let (text, atLineEnd, rest) ←
    readPlain s.inFlow s.minColumn s.rest.chars s.rest.mark [] .none
  return { (s.emit (.scalar text true)) with rest, keyAllowed := atLineEnd }

/-- Whether a scalar without quotes can begin like this. -/
def beginsPlain (inFlow : Bool) : List Char → Bool
  | [] => false
  | '-' :: cs => !endsWord cs
  | '?' :: cs => !inFlow && !endsWord cs
  | ':' :: cs => !inFlow && !endsWord cs
  | c :: _ => !(isBlank c || isBreak c || isFlowIndicator c ||
      c ∈ ['#', '&', '*', '!', '|', '>', '\'', '"', '%', '@', '\u0060'])

/-- Read one token; the text is not at its end. -/
def scanToken (s : Scanner) (c : Char) (cs : List Char) : Except SyntaxError Scanner :=
  let mark := s.rest.mark
  if mark.column = 0 ∧ c = '%' then .error .unsupported
  else if isTripled '-' mark (c :: cs) then s.scanDocumentMark .documentStart
  else if isTripled '.' mark (c :: cs) then s.scanDocumentMark .documentEnd
  else if c = '[' then s.scanOpen .flowSequence
  else if c = '{' then s.scanOpen .flowMapping
  else if c = ']' then s.scanClose .flowSequenceEnd
  else if c = '}' then s.scanClose .flowMappingEnd
  else if c = ',' then s.scanComma
  else if c = '-' ∧ endsWord cs then s.scanEntry
  else if c = '?' ∧ (s.inFlow ∨ endsWord cs) then s.scanKey
  else if c = ':' ∧ (s.inFlow ∨ endsWord cs) then s.scanValue
  else if c = '*' ∨ c = '&' ∨ c = '!' then .error .unsupported
  else if ¬s.inFlow ∧ (c = '|' ∨ c = '>') then .error .unsupported
  else if c = '\'' ∨ c = '"' then s.scanQuoted c
  else if beginsPlain s.inFlow (c :: cs) then s.scanPlain
  else .error .unexpectedCharacter

/-- Read tokens to the end of the text.  Each takes a character at least, so that as many steps as
there are characters, and one for the end, are enough. -/
def scanAll : Nat → Scanner → Except SyntaxError (List Token)
  | 0, _ => .error .unexpectedCharacter
  | steps + 1, s => do
    let s ← s.toNextToken.expireKeys
    match s.rest.chars with
    | [] =>
      let s ← (s.unroll none).dropKey
      return s.tokens.toList
    | c :: cs =>
      let s ← (s.unroll (some s.rest.mark.column)).scanToken c cs
      scanAll steps s

end Scanner

/-- The tokens of a text. -/
def tokenize (text : String) : Except SyntaxError (List Token) :=
  if text.toList.all isAllowed then
    let chars := normalizeBreaks text.toList
    Scanner.scanAll (chars.length + 1) (.start chars)
  else .error .forbiddenCharacter

end SlottedMesh.Yaml
