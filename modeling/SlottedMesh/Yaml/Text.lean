import SlottedMesh.Text.Numeral

/-!
# Characters and scalars of YAML

Which characters break a line or stand between words, and how the text of a scalar is read from the
characters that write it: plain, or in single or double quotes.  A scalar may go on over several
lines; a single line break then stands for a space and further ones for themselves.
-/

namespace SlottedMesh.Yaml

/-- Why a text is no YAML document. -/
inductive SyntaxError where
  /-- A character that no document holds. -/
  | forbiddenCharacter
  /-- A character with which nothing begins. -/
  | unexpectedCharacter
  /-- A tab where the line is indented. -/
  | tabIndentation
  /-- A quote that is never closed. -/
  | unclosedQuote
  /-- An escape that stands for nothing. -/
  | badEscape
  /-- A colon that could belong to the word or end it. -/
  | ambiguousColon
  /-- A key without its colon. -/
  | keyWithoutColon
  /-- An entry, key or value where there can be none. -/
  | misplacedIndicator
  /-- Something of YAML that is not understood here: directives, anchors, tags, block scalars. -/
  | unsupported
  /-- The document does not go on as it should. -/
  | unexpectedToken
deriving DecidableEq

/-! ## Characters -/

/-- Whether a document may hold the character. -/
def isAllowed (c : Char) : Bool :=
  c = '\t' || c = '\n' || c = '\r' || (' ' ≤ c && c ≤ '~') || c = '\u0085' ||
    ('\u00a0' ≤ c && c ≤ '\ufffd') || 0x10000 ≤ c.toNat

/-- Let every line end in a line feed.  The separators of lines and paragraphs stay what they
are. -/
def normalizeBreaks : List Char → List Char
  | [] => []
  | '\r' :: '\n' :: cs => '\n' :: normalizeBreaks cs
  | '\r' :: cs => '\n' :: normalizeBreaks cs
  | '\u0085' :: cs => '\n' :: normalizeBreaks cs
  | c :: cs => c :: normalizeBreaks cs

/-- Whether the character ends a line, once line ends are normalized. -/
def isBreak (c : Char) : Bool := c = '\n' || c = '\u2028' || c = '\u2029'

/-- Whether the character separates words on a line. -/
def isBlank (c : Char) : Bool := c = ' ' || c = '\t'

/-- Whether a text begins with a blank or a line break or is empty. -/
def endsWord : List Char → Bool
  | [] => true
  | c :: _ => isBlank c || isBreak c

/-! ## Positions -/

/-- A position in a text. -/
structure Mark where
  /-- How many lines were ended before. -/
  line : Nat
  /-- How many characters of the line come before. -/
  column : Nat
  /-- How many bytes of the line come before, in the encoding of one to four bytes a character. -/
  offset : Nat
deriving DecidableEq, Inhabited

/-- The position after one more character of the line. -/
def Mark.next (m : Mark) (c : Char) : Mark := ⟨m.line, m.column + 1, m.offset + c.utf8Size⟩

/-- The position after a line break. -/
def Mark.newline (m : Mark) : Mark := ⟨m.line + 1, 0, 0⟩

/-- What is left of a text, and where it begins. -/
structure Rest where
  /-- The characters that are left. -/
  chars : List Char
  /-- The position of the first of them. -/
  mark : Mark

/-- Whether a line begins with three times `c`, standing alone. -/
def isTripled (c : Char) (m : Mark) : List Char → Bool
  | x :: y :: z :: cs => m.column = 0 && x = c && y = c && z = c && endsWord cs
  | _ => false

/-- Whether a document begins or ends here. -/
def isDocumentMark (m : Mark) (cs : List Char) : Bool := isTripled '-' m cs || isTripled '.' m cs

/-! ## Folding -/

/-- What stands between two words of a scalar, latest character first. -/
inductive Gap where
  /-- Blanks of one line. -/
  | sameLine (blanks : List Char)
  /-- A line break and further ones after it. -/
  | folded (first : Char) (more : List Char)
  /-- A line break that was escaped, so that it counts for nothing, and further ones after it. -/
  | escaped (more : List Char)

/-- No gap. -/
def Gap.none : Gap := .sameLine []

/-- What the gap adds to the text of the scalar, latest character first: blanks of one line are
kept, a line break is a space unless further ones follow. -/
def Gap.text : Gap → List Char
  | .sameLine blanks => blanks
  | .folded first more =>
    if first = '\n' then (if more.isEmpty then [' '] else more) else more ++ [first]
  | .escaped more => more

/-- The gap with one more blank; blanks at the ends of lines do not count. -/
def Gap.addBlank (g : Gap) (c : Char) : Gap :=
  match g with
  | .sameLine blanks => .sameLine (c :: blanks)
  | _ => g

/-- The gap with one more line break. -/
def Gap.addBreak (g : Gap) (c : Char) : Gap :=
  match g with
  | .sameLine _ => .folded c []
  | .folded first more => .folded first (c :: more)
  | .escaped more => .escaped (c :: more)

/-- Whether the gap goes over the end of a line. -/
def Gap.isMultiline : Gap → Bool
  | .sameLine _ => false
  | _ => true

/-- Whether there is nothing in the gap. -/
def Gap.isEmpty : Gap → Bool
  | .sameLine blanks => blanks.isEmpty
  | _ => false

/-! ## Quoted scalars -/

/-- What an escaped character stands for, if it stands for one character. -/
def escape? : Char → Option Char
  | '0' => some '\u0000'
  | 'a' => some '\u0007'
  | 'b' => some '\u0008'
  | 't' => some '\t'
  | '\t' => some '\t'
  | 'n' => some '\n'
  | 'v' => some '\u000b'
  | 'f' => some '\u000c'
  | 'r' => some '\r'
  | 'e' => some '\u001b'
  | ' ' => some ' '
  | '"' => some '"'
  | '/' => some '/'
  | '\\' => some '\\'
  | 'N' => some '\u0085'
  | '_' => some '\u00a0'
  | 'L' => some '\u2028'
  | 'P' => some '\u2029'
  | _ => none

/-- How many hexadecimal digits follow an escaped character, if it is followed by digits. -/
def escapeWidth? : Char → Option Nat
  | 'x' => some 2
  | 'u' => some 4
  | 'U' => some 8
  | _ => none

/-- Where in a quoted scalar a character is read. -/
inductive QuotedMode where
  /-- In its text. -/
  | text
  /-- After a single quote in single quotes: a second one makes it part of the text. -/
  | afterQuote
  /-- After a backslash in double quotes. -/
  | escape
  /-- In the digits of an escape: so many are left, and the others have this value. -/
  | digits (left value : Nat)

/-- Read a quoted scalar from behind its opening quote.  The text so far and the gap that follows it
are held with the latest character first. -/
def readQuoted (quote : Char) :
    List Char → Mark → QuotedMode → List Char → Gap → Except SyntaxError (String × Rest)
  | [], m, .afterQuote, text, _ => .ok (String.ofList text.reverse, ⟨[], m⟩)
  | [], _, _, _, _ => .error .unclosedQuote
  | c :: cs, m, .afterQuote, text, gap =>
    if c = quote then readQuoted quote cs (m.next c) .text (c :: text) gap
    else .ok (String.ofList text.reverse, ⟨c :: cs, m⟩)
  | c :: cs, m, .digits left value, text, gap =>
    match Numeral.digit? 16 c with
    | none => .error .badEscape
    | some d =>
      let value := value * 16 + d
      if 1 < left then readQuoted quote cs (m.next c) (.digits (left - 1) value) text gap
      else if value.isValidChar then
        readQuoted quote cs (m.next c) .text (Char.ofNat value :: text) gap
      else .error .badEscape
  | c :: cs, m, .escape, text, gap =>
    if isBreak c then readQuoted quote cs m.newline .text text (.escaped [])
    else match escape? c, escapeWidth? c with
      | some e, _ => readQuoted quote cs (m.next c) .text (e :: text) gap
      | none, some width => readQuoted quote cs (m.next c) (.digits width 0) text gap
      | none, none => .error .badEscape
  | c :: cs, m, .text, text, gap =>
    if isBreak c then readQuoted quote cs m.newline .text text (gap.addBreak c)
    else if isBlank c then readQuoted quote cs (m.next c) .text text (gap.addBlank c)
    else if isDocumentMark m (c :: cs) then .error .unclosedQuote
    else
      let text := gap.text ++ text
      if c = quote then
        if quote = '"' then .ok (String.ofList text.reverse, ⟨cs, m.next c⟩)
        else readQuoted quote cs (m.next c) .afterQuote text .none
      else if c = '\\' ∧ quote = '"' then readQuoted quote cs (m.next c) .escape text .none
      else readQuoted quote cs (m.next c) .text (c :: text) .none

/-! ## Plain scalars -/

/-- Whether the character is a bracket or a comma, which end a plain scalar between brackets. -/
def isFlowIndicator (c : Char) : Bool := c ∈ [',', '[', ']', '{', '}']

/-- Read a plain scalar.  `inFlow` says whether it stands between brackets; if not, later lines must
be indented to `minColumn` to belong to it.  The flag tells whether a line ended behind its last
word. -/
def readPlain (inFlow : Bool) (minColumn : Nat) :
    List Char → Mark → List Char → Gap → Except SyntaxError (String × Bool × Rest)
  | [], m, text, gap => .ok (String.ofList text.reverse, gap.isMultiline, ⟨[], m⟩)
  | c :: cs, m, text, gap =>
    let done := .ok (String.ofList text.reverse, gap.isMultiline, ⟨c :: cs, m⟩)
    if isBreak c then readPlain inFlow minColumn cs m.newline text (gap.addBreak c)
    else if isBlank c then
      if gap.isMultiline ∧ m.column < minColumn ∧ c = '\t' then .error .tabIndentation
      else readPlain inFlow minColumn cs (m.next c) text (gap.addBlank c)
    else if !gap.isEmpty && (!inFlow && m.column < minColumn || isDocumentMark m (c :: cs) || c = '#')
    then done
    else if c = ':' ∧ inFlow ∧ (cs.head?.any fun d => isFlowIndicator d || d = '?') then
      .error .ambiguousColon
    else if c = ':' ∧ endsWord cs ∨ inFlow ∧ isFlowIndicator c then done
    else readPlain inFlow minColumn cs (m.next c) (c :: (gap.text ++ text)) .none

end SlottedMesh.Yaml
