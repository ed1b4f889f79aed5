import TestAccess.Text.Pictograph
import TestAccess.Text.Offset

/-!
# Pieces of a Swift source

To find declarations in a source it is enough to know its words, its symbols
and its brackets. A source becomes a list of pieces: a piece is a single
lexeme, or a pair of brackets with the pieces between them. String literals
are brackets too – what is written in them is passed over, and only the code
interpolated into them is kept, as pieces inside the literal.

Since a bracket is one piece, everything else about a source can be said of
flat lists: a declaration is a run of pieces, and to skip a body is to skip
one piece. What the layout of the text means – a line break ends a
statement, `x?` is not `x ?` – is kept with each piece as the way it is set
off from what comes before it.

Pieces are made in two passes. The first turns characters into events, with
a stack that tells code from string contents; the second pairs the brackets.
Both give a result for every text. Whether a slash divides or opens a regular
expression depends on what stands before it, so the first pass also knows
whether an operand has just ended.
-/

namespace TestAccess.Source

/-- How a piece is set off from the piece before it. -/
structure Lead where
  /-- There is a line break in between that may end a statement. -/
  breaks : Bool := false
  /-- Behind that line break there are comments on lines of their own. -/
  aside : Bool := false
  /-- There is anything at all in between. -/
  spaced : Bool := false
  /-- The comments in between. -/
  comments : List ByteRange := []

namespace Lead

/-- A gap, with or without a line break. -/
def addGap (l : Lead) (newline : Bool) : Lead :=
  { l with breaks := l.breaks || newline, spaced := true }

/-- **A comment.** One that runs to the end of its line leaves a line break
before it in force. A comment in brackets takes the place of the line break
before it, unless it follows a comment of the first kind. -/
def addComment (l : Lead) (bracketed : Bool) (range : ByteRange) : Lead :=
  { breaks := l.breaks && !(bracketed && !l.aside),
    aside := l.aside || (l.breaks && !bracketed),
    spaced := true, comments := l.comments ++ [range] }

end Lead

/-- Where a piece stands. -/
structure Place where
  range : ByteRange
  lead : Lead := {}
  /-- The bracket at its end, if the piece has parts and they are closed. -/
  closing : Option ByteRange := none

/-- The bracket at the end of a piece with parts. Where it is missing, it is
empty. -/
def Place.ending (place : Place) : ByteRange :=
  place.closing.getD ⟨place.range.stop, place.range.stop⟩

/-- A piece without parts. -/
inductive Lexeme where
  /-- An identifier or a keyword, with its backticks if it has any. -/
  | word (text : String)
  /-- A number or a regular expression. -/
  | literal
  /-- One character of an operator or of punctuation. -/
  | symbol (c : Char)
  | arrow
deriving DecidableEq, Repr

/-- What holds a piece with parts together. -/
inductive Frame where
  | round
  | square
  | curly
  /-- A string literal; its parts are interpolations. -/
  | quoted
  | interpolation
deriving DecidableEq, Repr

/-- **A piece of a source.** -/
inductive Piece where
  | leaf (place : Place) (lexeme : Lexeme)
  | nested (place : Place) (frame : Frame) (parts : List Piece)

namespace Piece

/-- Where the piece stands. -/
def place : Piece → Place
  | .leaf place _ => place
  | .nested place _ _ => place

/-- The bytes of the piece. -/
def range (p : Piece) : ByteRange := p.place.range

/-- Whether a line break stands before the piece that may end a statement. -/
def startsLine (p : Piece) : Bool := p.place.lead.breaks

/-- Whether there are comments on lines of their own before the piece. -/
def isAside (p : Piece) : Bool := p.place.lead.aside

/-- Whether nothing stands between the piece and the one before it. -/
def isGlued (p : Piece) : Bool := !p.place.lead.spaced

/-- The text of a word. -/
def word? : Piece → Option String
  | .leaf _ (.word text) => some text
  | _ => none

/-- The character of a symbol. -/
def symbol? : Piece → Option Char
  | .leaf _ (.symbol c) => some c
  | _ => none

/-- Whether the piece is the given word. -/
def isWord (p : Piece) (text : String) : Bool := p.word? == some text

/-- Whether the piece is one of the given words. -/
def isWordIn (p : Piece) (texts : List String) : Bool := p.word?.any texts.contains

/-- Whether the piece is the given symbol. -/
def isSymbol (p : Piece) (c : Char) : Bool := p.symbol? == some c

/-- Whether the piece is an arrow. -/
def isArrow : Piece → Bool
  | .leaf _ .arrow => true
  | _ => false

/-- Whether the piece is held together by the given frame. -/
def isFramed (frame : Frame) : Piece → Bool
  | .nested _ f _ => f == frame
  | _ => false

/-- The pieces inside the piece. -/
def parts : Piece → List Piece
  | .leaf _ _ => []
  | .nested _ _ parts => parts

end Piece

/-! ## Characters -/

/-- The ranges of operator characters beyond ASCII. -/
def operatorsBeyond : List CodeRange :=
  [(0xA1, 0xA7), (0xA9, 0xA9), (0xAB, 0xAC), (0xAE, 0xAE), (0xB0, 0xB1), (0xB6, 0xB6),
    (0xBB, 0xBB), (0xBF, 0xBF), (0xD7, 0xD7), (0xF7, 0xF7), (0x2016, 0x2017), (0x2020, 0x2027),
    (0x2030, 0x203E), (0x2041, 0x2053), (0x2055, 0x205E), (0x2190, 0x23FF), (0x2500, 0x2775),
    (0x2794, 0x2BFF), (0x2E00, 0x2E7F), (0x3001, 0x3003), (0x3008, 0x3020), (0x3030, 0x3030)]

/-- Whether a character may open a word. Beyond ASCII everything may that is
neither blank nor an operator, and a pictograph may in any case. -/
def opensWord (c : Char) : Bool :=
  if c.toNat < 0x80 then isLetter c || c == '_' || c == '$'
  else
    !isBlank c && c != '\ufeff' &&
      (isPictograph c || !CodeRange.holds operatorsBeyond c.toNat)

/-- Whether a character may stand in a word. -/
def continuesWord (c : Char) : Bool := opensWord c || isNumeric c

/-- Whether a character counts as a gap between pieces. A byte order mark
does. -/
def isGap (c : Char) : Bool := isBlank c || c == '\ufeff'

/-- The characters of ASCII operators. -/
def isOperator (c : Char) : Bool :=
  "/=-+!*%<>&|^~?".toList.contains c || CodeRange.holds operatorsBeyond c.toNat

/-! ## From characters to events -/

/-- What the text is read as: code between brackets, or the contents of a
string literal with so many number signs around its quotes. -/
inductive Context where
  | code (frame : Frame)
  | contents (signs : Nat) (multiline : Bool)

/-- An event of reading. -/
inductive Event where
  | leaf (place : Place) (lexeme : Lexeme)
  | opening (place : Place) (frame : Frame)
  | closing (range : ByteRange)

/-- The frame that a bracket opens. -/
def openedFrame? : Char → Option Frame
  | '(' => some .round
  | '[' => some .square
  | '{' => some .curly
  | _ => none

/-- Whether a bracket closes the frame. -/
def closesFrame (c : Char) : Frame → Bool
  | .round => c == ')'
  | .interpolation => c == ')'
  | .square => c == ']'
  | .curly => c == '}'
  | .quoted => false

/-- Whether a character is a closing bracket. -/
def isClosing (c : Char) : Bool := c == ')' || c == ']' || c == '}'

/-- The length of a block comment from behind its opening; comments nest. -/
def blockCommentLength : Nat → List Char → Nat
  | _, [] => 0
  | 0, _ => 0
  | depth + 1, '*' :: '/' :: cs => 2 + blockCommentLength depth cs
  | depth + 1, '/' :: '*' :: cs => 2 + blockCommentLength (depth + 2) cs
  | depth + 1, _ :: cs => 1 + blockCommentLength (depth + 1) cs

/-- The length of a comment, if the text opens with one, and whether it is in
brackets. -/
def comment? : List Char → Option (Nat × Bool)
  | '/' :: '/' :: cs => some (2 + (cs.takeWhile fun c => c != '\n').length, false)
  | '/' :: '*' :: cs => some (2 + blockCommentLength 1 cs, true)
  | _ => none

/-! ### Regular expressions

Between slashes a regular expression stays on its line, has no slash in it
and does not end with a blank. Between slashes with number signs it reaches to
the last such ending on its line or, if it opens with a line break, to the
first line that opens with the ending. -/

/-- The length of a regular expression from behind its opening slash, its
closing one included. -/
def regexLength? (cs : List Char) : Option Nat :=
  let body := cs.takeWhile fun c => c != '/' && c != '\n'
  match body.getLast?, cs.drop body.length with
  | some last, '/' :: _ =>
    if last == ' ' || last == '\t' then none else some (body.length + 1)
  | _, _ => none

/-- The length of a text up to the end of the last `/#` on its line, if there
is one; `passed` characters come before it. -/
def lastEnding? (passed : Nat) : List Char → Option Nat
  | [] => none
  | '\n' :: _ => none
  | c :: cs =>
    match lastEnding? (passed + 1) cs with
    | some length => some length
    | none => if c == '/' && cs.head? == some '#' then some (passed + 2) else none

/-- The length of a text up to the end of the first line that opens with
`/#`. -/
def endingLine? (passed : Nat) : List Char → Option Nat
  | [] => none
  | c :: cs =>
    let gap := (cs.takeWhile fun c => c == ' ' || c == '\t').length
    match c == '\n', cs.drop gap with
    | true, '/' :: '#' :: _ => some (passed + 1 + gap + 2)
    | _, _ => endingLine? (passed + 1) cs

/-- The length of a regular expression with number signs, if the text opens
with one. -/
def markedRegexLength? : List Char → Option Nat
  | '#' :: '/' :: '\n' :: cs => endingLine? 2 ('\n' :: cs)
  | '#' :: '/' :: cs => lastEnding? 2 cs
  | _ => none

/-- Words behind which an operand is expected. -/
def expectantWords : List String :=
  ["return", "throw", "try", "await", "in", "case", "where", "if", "else", "while", "guard",
    "switch", "for", "yield", "is", "as"]

/-- Whether an operand has ended with a lexeme. A mark that is glued to an
operand ends it too; `ended` says whether an operand had ended before. -/
def Lexeme.endsOperand (ended glued : Bool) : Lexeme → Bool
  | .word text => !expectantWords.contains text
  | .literal => true
  | .symbol c => (c == '!' || c == '?') && glued && ended
  | .arrow => false

/-- Whether a slash opens a regular expression: where an operand is expected,
or at the start of a line if no blank follows. -/
def slashOpens (ended breaks : Bool) (cs : List Char) : Bool :=
  !ended || (breaks && !(cs.head?.any isBlank))

/-- The opening of a string literal: its length, its number signs, and
whether it runs over lines. -/
def literalOpening? (cs : List Char) : Option (Nat × Nat × Bool) :=
  let signs := (cs.takeWhile (· == '#')).length
  match cs.drop signs with
  | '"' :: '"' :: '"' :: _ => some (signs + 3, signs, true)
  | '"' :: _ => some (signs + 1, signs, false)
  | _ => none

/-- A word or a number at the front of a text, with its length. -/
def wordOrNumber? (cs : List Char) : Option (Lexeme × Nat) :=
  match cs with
  | [] => none
  | '`' :: rest =>
    let name := rest.takeWhile fun c => c != '`' && c != '\n'
    match rest.drop name.length with
    | '`' :: _ => some (.word (String.ofList ('`' :: name ++ ['`'])), name.length + 2)
    | _ => none
  | c :: rest =>
    if opensWord c then
      let name := c :: rest.takeWhile continuesWord
      some (.word (String.ofList name), name.length)
    else if isNumeric c then some (.literal, 1 + (rest.takeWhile continuesWord).length)
    else none

/-- A regular expression at the front of a text, with its length. -/
def regex? (ended breaks : Bool) (cs : List Char) : Option Nat :=
  match cs with
  | '/' :: rest => if slashOpens ended breaks rest then (regexLength? rest).map (· + 1) else none
  | _ => markedRegexLength? cs

/-- What the next characters are, in code. -/
inductive CodeStep where
  | gap (length : Nat) (newline : Bool)
  | comment (length : Nat) (bracketed : Bool)
  | literal (length signs : Nat) (multiline : Bool)
  | lexeme (lexeme : Lexeme) (length : Nat)
  | opening (frame : Frame)
  | closing (c : Char)

/-- The next step in code that is neither empty nor opens with a blank. -/
def visibleStep (ended breaks : Bool) (c : Char) (cs : List Char) : CodeStep :=
  match comment? (c :: cs), literalOpening? (c :: cs), wordOrNumber? (c :: cs),
    regex? ended breaks (c :: cs) with
  | some (length, bracketed), _, _, _ => .comment length bracketed
  | none, some (length, signs, multiline), _, _ => .literal length signs multiline
  | none, none, some (lexeme, length), _ => .lexeme lexeme length
  | none, none, none, some length => .lexeme .literal length
  | none, none, none, none =>
    match openedFrame? c with
    | some frame => .opening frame
    | none =>
      if isClosing c then .closing c
      else if c == '-' && cs.head? == some '>' then .lexeme .arrow 2
      else .lexeme (.symbol c) 1

/-- The next step in code that is not empty. -/
def codeStep (ended breaks : Bool) (c : Char) (cs : List Char) : CodeStep :=
  if isGap c then .gap 1 (c == '\n' || c == '\r') else visibleStep ended breaks c cs

/-- What the next characters are, in the contents of a string literal. -/
inductive ContentsStep where
  | skip (length : Nat)
  | interpolation (length : Nat)
  | closing (length : Nat)

/-- The next step in contents that are not empty. A literal on one line ends
with the line even if its quote is missing. -/
def contentsStep (signs : Nat) (multiline : Bool) (c : Char) (cs : List Char) : ContentsStep :=
  let marks := List.replicate signs '#'
  let quotes := if multiline then ['"', '"', '"'] else ['"']
  if (quotes ++ marks).isPrefixOf (c :: cs) then .closing (quotes.length + signs)
  else if c == '\\' && marks.isPrefixOf cs then
    if (cs.drop signs).head? == some '(' then .interpolation (signs + 2) else .skip (signs + 2)
  else if !multiline && c == '\n' then .closing 0
  else .skip 1

/-- How far a text has been read. -/
structure Progress where
  /-- What the text stands in, from the inside out. -/
  contexts : List Context := []
  offset : Nat := 0
  /-- What sets off the piece that comes next. -/
  lead : Lead := {}
  /-- Whether an operand has just ended. -/
  ended : Bool := false
  /-- The text that is left. -/
  rest : List Char

namespace Progress

/-- Passes some characters. -/
def pass (s : Progress) (length : Nat) : Progress :=
  { s with
    offset := s.offset + Chars.width (s.rest.take length), rest := s.rest.drop length }

/-- Where some characters stand. -/
def rangeOf (s : Progress) (length : Nat) : ByteRange := ⟨s.offset, (s.pass length).offset⟩

/-- A step in the contents of a literal; `outer` is what the literal stands
in. -/
def stepInContents (s : Progress) (outer : List Context) :
    ContentsStep → Option Event × Progress
  | .skip length => (none, { s.pass length with ended := false })
  | .interpolation length =>
    (some (.opening { range := s.rangeOf length } .interpolation),
      { s.pass length with
        contexts := .code .interpolation :: s.contexts, lead := {}, ended := false })
  | .closing length =>
    (some (.closing (s.rangeOf length)),
      { s.pass length with contexts := outer, lead := {}, ended := true })

/-- A step in code. A closing bracket that does not fit is passed over. -/
def stepInCode (s : Progress) : CodeStep → Option Event × Progress
  | .gap length newline => (none, { s.pass length with lead := s.lead.addGap newline })
  | .comment length bracketed =>
    (none, { s.pass length with lead := s.lead.addComment bracketed (s.rangeOf length) })
  | .literal length signs multiline =>
    (some (.opening { range := s.rangeOf length, lead := s.lead } .quoted),
      { s.pass length with
        contexts := .contents signs multiline :: s.contexts, lead := {}, ended := false })
  | .lexeme lexeme length =>
    (some (.leaf { range := s.rangeOf length, lead := s.lead } lexeme),
      { s.pass length with lead := {}, ended := lexeme.endsOperand s.ended !s.lead.spaced })
  | .opening frame =>
    (some (.opening { range := s.rangeOf 1, lead := s.lead } frame),
      { s.pass 1 with contexts := .code frame :: s.contexts, lead := {}, ended := false })
  | .closing bracket =>
    let next := { s.pass 1 with lead := {}, ended := true }
    match s.contexts with
    | .code frame :: outer =>
      if closesFrame bracket frame then
        (some (.closing (s.rangeOf 1)), { next with contexts := outer })
      else (none, next)
    | _ => (none, next)

/-- **A step of reading**, where a character and others behind it are left. -/
def step (s : Progress) (c : Char) (cs : List Char) : Option Event × Progress :=
  match s.contexts with
  | .contents signs multiline :: outer =>
    s.stepInContents outer (contentsStep signs multiline c cs)
  | _ => s.stepInCode (codeStep s.ended s.lead.breaks c cs)

end Progress

/-- **The events of a text.** Each step but the last uses up a character or
leaves a literal, so that twice the length of the text is enough fuel. -/
def events : (fuel : Nat) → Progress → List Event
  | 0, _ => []
  | fuel + 1, s =>
    match s.rest with
    | [] => []
    | c :: cs =>
      match s.step c cs with
      | (some e, next) => e :: events fuel next
      | (none, next) => events fuel next

/-! ## From events to pieces -/

/-- A bracket that is still open, with the pieces in front of it, the last
one first. -/
structure OpenFrame where
  place : Place
  frame : Frame
  before : List Piece

/-- Closes a bracket around pieces, the last one first. -/
def OpenFrame.close (o : OpenFrame) (stop : Nat) (closing : Option ByteRange)
    (inside : List Piece) : List Piece :=
  .nested { o.place with range := ⟨o.place.range.start, stop⟩, closing } o.frame inside.reverse ::
    o.before

/-- Closes all brackets at the end of a text. -/
def closeAll (stop : Nat) : List OpenFrame → List Piece → List Piece
  | [], inside => inside.reverse
  | o :: outer, inside => closeAll stop outer (o.close stop none inside)

/-- **Pairs the brackets.** A bracket without its partner reaches to the end
of the text. -/
def pair (stop : Nat) : List OpenFrame → List Piece → List Event → List Piece
  | outer, inside, [] => closeAll stop outer inside
  | outer, inside, .leaf place lexeme :: es => pair stop outer (.leaf place lexeme :: inside) es
  | outer, inside, .opening place frame :: es => pair stop (⟨place, frame, inside⟩ :: outer) [] es
  | [], inside, .closing _ :: es => pair stop [] inside es
  | o :: outer, inside, .closing range :: es =>
    pair stop outer (o.close range.stop (some range) inside) es

/-- **The pieces of a source.** -/
def pieces (source : List Char) : List Piece :=
  pair (Chars.width source) [] [] (events (2 * source.length) { rest := source })

end TestAccess.Source
