import TestAccess.Source.TypeRun

/-!
# How far an expression reaches

An expression is a chain of operands, each with what is glued or applied to
it, and of operators between them. It is read with a state that says whether
an operand is expected or has ended, and how many conditionals wait for their
colon.

Two things ask for more. A line break ends an expression unless the next line
can only continue it. And braces behind an operand are a closure that is
passed to it – except behind the initial value of a property, where braces
that watch changes belong to the property. Behind `try` and `await` they still
go to the operand, because these take everything that follows as far as they
can: only a call, or for `try` a second operand, lets them end before the
braces. So the state also knows which of them are waiting for an end.
-/

namespace TestAccess.Source

/-- Where an expression stands. -/
structure ExpressionMode where
  rule : LineRule
  /-- Braces that watch changes end the expression. -/
  isInitial : Bool := false

/-- What waits for the end of its operand. -/
inductive Waiting where
  | attempt
  | awaiting
  /-- It ends only with the expression. -/
  | bound
deriving DecidableEq, Repr

/-- What is expected next in an expression. -/
inductive Phase where
  /-- An operand. -/
  | operand
  /-- The operand of an operator that may also stand for itself. -/
  | operandOrEnd
  /-- The mark of a `try`, or its operand. -/
  | attempted
  /-- The end of a range, which may be missing. -/
  | rangeEnd
  /-- What may follow an operand. -/
  | suffix
  /-- A name behind a dot. -/
  | member
  /-- A name behind a number sign. -/
  | directive
  /-- The first component of a key path. -/
  | keyPath
  /-- The end of generic arguments. -/
  | angles (depth : Nat)
  /-- The type of a cast. -/
  | cast (state : TypeState)
  /-- The block of an `if` or `switch` used as a value. -/
  | block
  /-- What follows `else`. -/
  | alternative
  /-- So many pieces, and then something else. -/
  | passing (count : Nat) (next : Phase)
deriving DecidableEq, Repr

/-- What is known in the middle of an expression. -/
structure ExpressionState where
  phase : Phase := .operand
  /-- The conditionals that wait for their colon. -/
  conditionals : Nat := 0
  /-- What waits for an end, from the inside out. -/
  waiting : List Waiting := []
  /-- The last piece is in braces. -/
  behindBraces : Bool := false
  /-- An `else` may follow. -/
  hasAlternative : Bool := false
  /-- The operand is a type with generic arguments so far. -/
  isType : Bool := false

namespace ExpressionState

/-- An operand has ended. -/
def ended (s : ExpressionState) : ExpressionState :=
  { s with phase := .suffix, behindBraces := false, hasAlternative := false, isType := false }

/-- Expects something behind so many more pieces. -/
def expect (s : ExpressionState) (next : Phase) (count : Nat) : ExpressionState :=
  { s with phase := if count = 0 then next else .passing count next, isType := false }

/-- What still waits after a call. -/
def waitingAfterCall (s : ExpressionState) : List Waiting :=
  match s.waiting with
  | .attempt :: outer | .awaiting :: outer => if s.isType then s.waiting else outer
  | waiting => waiting

/-- What still waits after a second operand. -/
def waitingAfterJoin (s : ExpressionState) : List Waiting :=
  match s.waiting with
  | .attempt :: outer => outer
  | waiting => waiting

/-- What still waits after the second half of a conditional. -/
def waitingAfterConditional (s : ExpressionState) : List Waiting :=
  match s.waiting with
  | .attempt :: outer | .awaiting :: outer => outer
  | waiting => waiting

end ExpressionState

/-! ## Operands -/

/-- Words that hand on the operand behind them. -/
def forwardingWords : List String :=
  ["copy", "consume", "borrow", "discard", "unsafe", "each", "repeat", "any", "some"]

/-- Words between operands. -/
def infixWords : List String := ["as", "is", "else", "in", "where"]

/-- Whether an operand follows a word on its line that could not be applied to
the word itself. -/
def operandFollows : List Piece → Bool
  | p :: _ =>
    !p.startsLine &&
      match p with
      | .leaf _ (.word text) => !infixWords.contains text
      | .leaf _ .literal => true
      | .leaf _ (.symbol c) => c == '\\' || c == '#'
      | .leaf _ .arrow => false
      | .nested _ frame _ => frame == .quoted
  | [] => false

/-- Whether an operand can begin with a piece. -/
def opensOperand (p : Piece) (ps : List Piece) : Bool :=
  match p with
  | .leaf _ (.word text) => !infixWords.contains text
  | .leaf _ (.symbol c) =>
    c == '\\' || c == '#' ||
      ["-", "+", "!", "~", "&", "."].contains (String.ofList (operatorAt (p :: ps)))
  | .leaf _ .arrow => false
  | .leaf _ .literal | .nested _ _ _ => true

/-- A word where an operand is expected. -/
def wordOperand (s : ExpressionState) (text : String) (ps : List Piece) : ExpressionState :=
  if text = "try" then { s with phase := .attempted, waiting := .attempt :: s.waiting }
  else if text = "await" then { s with phase := .operand, waiting := .awaiting :: s.waiting }
  else if text = "if" || text = "switch" then { s with phase := .block }
  else if forwardingWords.contains text && operandFollows ps then { s with phase := .operand }
  else s.ended

/-- A symbol where an operand is expected. -/
def symbolOperand (s : ExpressionState) (c : Char) (p : Piece) (ps : List Piece) :
    Option ExpressionState :=
  match operatorAt (p :: ps) with
  | [] =>
    if c == '\\' then some { s with phase := .keyPath }
    else if c == '#' then some { s with phase := .directive }
    else none
  | ['.'] => some { s with phase := .member }
  | ['.', '.', '.'] => some ({ s with waiting := .bound :: s.waiting }.expect .rangeEnd 2)
  | ['.', '.', '<'] => some ({ s with waiting := .bound :: s.waiting }.expect .operand 2)
  | operator => some (s.expect .operandOrEnd (operator.length - 1))

/-- A piece where an operand is expected. -/
def operandNext (s : ExpressionState) (p : Piece) (ps : List Piece) : Option ExpressionState :=
  match p with
  | .nested _ frame _ => some { s.ended with behindBraces := frame == .curly }
  | .leaf _ .literal => some s.ended
  | .leaf _ .arrow => none
  | .leaf _ (.word text) => some (wordOperand s text ps)
  | .leaf _ (.symbol c) => symbolOperand s c p ps

/-! ## What follows an operand -/

/-- Whether a label and a further closure follow a closure. -/
def opensLabelledClosure (p : Piece) : List Piece → Bool
  | q :: r :: _ => p.word?.isSome && q.isSymbol ':' && r.isFramed .curly
  | _ => false

/-- Whether generic arguments stand behind their opening angle: they must be
closed, and a call or a member must follow. -/
def opensArguments (rule : LineRule) (ps : List Piece) : Bool :=
  match behindAngles? 1 ps with
  | some (p :: rest) =>
    ((p.isFramed .round || p.isFramed .curly) && !(rule = .ending && p.startsLine)) ||
      opensMember p rest
  | _ => false

/-- Whether a word is an operator that a program has declared. -/
def isOperatorWord (text : String) : Bool :=
  text.toList.head?.any fun c => CodeRange.holds operatorsBeyond c.toNat

/-- An operator where an operand has ended. -/
def operatorSuffix (mode : ExpressionMode) (s : ExpressionState) (operator : List Char)
    (p : Piece) (ps : List Piece) : ExpressionState :=
  let more := operator.length - 1
  match OperatorRole.of operator p.isGlued with
  | .member => { s with phase := .member }
  | .mark => s.ended.expect .suffix more
  | .conditional => { s.ended with phase := .operand, conditionals := s.conditionals + 1 }
  | .range isOpen =>
    { s with waiting := s.waitingAfterJoin }.expect (if isOpen then .rangeEnd else .operand) more
  | .assignment => { s with waiting := .bound :: s.waiting }.expect .operand more
  | .joining =>
    if operator = ['<'] && opensArguments mode.rule ps then { s with phase := .angles 1 }
    else { s with waiting := s.waitingAfterJoin }.expect .operand more

/-- A symbol where an operand has ended. -/
def symbolSuffix (mode : ExpressionMode) (s : ExpressionState) (c : Char) (p : Piece)
    (ps : List Piece) : Option ExpressionState :=
  let broken := mode.rule = .ending && p.startsLine
  if c == ':' then
    if s.conditionals = 0 || (broken && p.isAside) then none
    else
      some { s.ended with
        phase := .operand, conditionals := s.conditionals - 1,
        waiting := s.waitingAfterConditional }
  else
    match operatorAt (p :: ps) with
    | [] => none
    | operator =>
      if broken && !continuesLine operator p.isAside (gapFollows (operator.length - 1) ps) then none
      else some (operatorSuffix mode s operator p ps)

/-- A word where an operand has ended. -/
def wordSuffix (mode : ExpressionMode) (s : ExpressionState) (text : String) (p : Piece)
    (ps : List Piece) : Option ExpressionState :=
  let broken := mode.rule = .ending && p.startsLine
  if text = "as" then some { s.ended with phase := .cast .start }
  else if text = "else" then
    if s.hasAlternative then some { s with phase := .alternative } else none
  else if isOperatorWord text then
    some { s.ended with phase := .operand, waiting := s.waitingAfterJoin }
  else if broken then none
  else if text = "is" then
    some { s.ended with phase := .cast .start, waiting := s.waitingAfterJoin }
  else if s.behindBraces && opensLabelledClosure p ps then some (s.expect .operand 1)
  else none

/-- Braces where an operand has ended: a closure that is passed to it. -/
def bracesSuffix (mode : ExpressionMode) (s : ExpressionState) (p : Piece) :
    Option ExpressionState :=
  if mode.rule = .ending && p.startsLine && p.isAside then none
  else if mode.isInitial && s.waiting = [] && s.conditionals = 0 && isObserverBlock p.parts then
    none
  else
    some { s with
      phase := .suffix, waiting := s.waitingAfterCall, behindBraces := true, isType := false }

/-- A piece where an operand has ended. -/
def suffixNext (mode : ExpressionMode) (s : ExpressionState) (p : Piece) (ps : List Piece) :
    Option ExpressionState :=
  match p with
  | .nested _ .round _ | .nested _ .square _ =>
    if mode.rule = .ending && p.startsLine then none
    else some { s.ended with waiting := s.waitingAfterCall }
  | .nested _ .curly _ => bracesSuffix mode s p
  | .leaf _ (.symbol c) => symbolSuffix mode s c p ps
  | .leaf _ (.word text) => wordSuffix mode s text p ps
  | _ => none

/-! ## Expressions -/

/-- Whether a line break before a piece counts. -/
def ExpressionMode.breaksAt (mode : ExpressionMode) (p : Piece) : Bool :=
  mode.rule ≠ .ignored && p.startsLine

/-- A piece in the type of a cast, or behind it. Two marks in a row are an
operator and no part of the type. -/
def castNext (mode : ExpressionMode) (s : ExpressionState) (state : TypeState) (p : Piece)
    (ps : List Piece) : Option ExpressionState :=
  let operator := operatorAt (p :: ps)
  if state = .start && p.isGlued && (operator = ['?'] || operator = ['!']) then
    some { s with phase := .cast .start }
  else if state = .after && operator.length = 2 && operator.head? = some '?' then
    suffixNext mode s p ps
  else
    match typeNext mode.rule state p ps with
    | some next => some { s with phase := .cast next }
    | none => suffixNext mode s p ps

/-- One piece of an expression. -/
def expressionNext (mode : ExpressionMode) (s : ExpressionState) (p : Piece) (ps : List Piece) :
    Option ExpressionState :=
  match s.phase with
  | .operand => operandNext s p ps
  | .operandOrEnd =>
    if mode.breaksAt p || p.isWordIn infixWords then suffixNext mode s.ended p ps
    else operandNext s p ps
  | .attempted =>
    let operator := operatorAt (p :: ps)
    if p.isGlued && (operator = ['?'] || operator = ['!']) then some { s with phase := .operand }
    else operandNext s p ps
  | .rangeEnd =>
    if !mode.breaksAt p && opensOperand p ps then operandNext s p ps
    else suffixNext mode s.ended p ps
  | .suffix => suffixNext mode s p ps
  | .member => some s.ended
  | .directive => some s.ended
  | .keyPath =>
    if p.isSymbol '.' then some { s with phase := .member }
    else if p.word?.isSome || p.isFramed .square then some s.ended
    else suffixNext mode s.ended p ps
  | .angles depth =>
    if p.isSymbol '<' then some { s with phase := .angles (depth + 1) }
    else if p.isSymbol '>' then
      some (if depth ≤ 1 then { s.ended with isType := true }
        else { s with phase := .angles (depth - 1) })
    else some s
  | .cast state => castNext mode s state p ps
  | .block =>
    some (if p.isFramed .curly then { s.ended with behindBraces := true, hasAlternative := true }
      else s)
  | .alternative =>
    some (if p.isFramed .curly then { s.ended with behindBraces := true, hasAlternative := true }
      else { s with phase := .block })
  | .passing count next =>
    some { s with phase := if count ≤ 1 then next else .passing (count - 1) next }

/-- **The expression at the front**, and what follows it. -/
def takeExpression (mode : ExpressionMode) (ps : List Piece) : List Piece × List Piece :=
  takeRun (expressionNext mode) {} ps

end TestAccess.Source
