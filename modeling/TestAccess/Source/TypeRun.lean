import TestAccess.Source.Run

/-!
# How far a type reaches

A type is a name, a tuple or a bracket, with specifiers and attributes in
front of it and members, generic arguments and marks behind it; an arrow or an
ampersand joins it to another type. Words that specify a type may also be
names of types, and are taken for names unless a type follows.
-/

namespace TestAccess.Source

/-- Words that may stand in front of a type. -/
def typeSpecifiers : List String :=
  ["inout", "some", "any", "each", "repeat", "borrowing", "consuming", "sending", "isolated",
    "__owned", "__shared", "_const", "nonisolated"]

/-- The words of effects. -/
def effectWords : List String := ["async", "throws", "rethrows"]

/-- Whether the effects of a function type lead up to its arrow. -/
def leadsToArrow : List Piece → Bool
  | [] => false
  | p :: ps =>
    p.isArrow ||
      (p.isWordIn effectWords &&
        match ps with
        | q :: qs => (q.isFramed .round && leadsToArrow qs) || leadsToArrow (q :: qs)
        | [] => false)

/-- Whether a type can begin with a piece. -/
def opensType (p : Piece) : Bool :=
  p.isSymbol '@' || p.isSymbol '~' || p.isFramed .round || p.isFramed .square ||
    (p.word?.isSome && !p.isWordIn (effectWords ++ ["where", "in", "as", "is", "else"]))

/-- Whether a type follows. -/
def typeFollows (rule : LineRule) : List Piece → Bool
  | p :: _ => opensType p && (rule = .ignored || !p.startsLine)
  | [] => false

/-- What is expected next in a type. -/
inductive TypeState where
  /-- A type. -/
  | start
  /-- The name of an attribute. -/
  | attributeName
  /-- What may follow the name of an attribute. -/
  | behindAttribute
  /-- The end of a list of generic arguments, at a depth; `false` in an
  attribute. -/
  | angles (depth : Nat) (ofType : Bool)
  /-- A name behind a dot; `false` in an attribute. -/
  | member (ofType : Bool)
  /-- What may follow a type. -/
  | after
  /-- The arrow of a function type, behind its effects. -/
  | effects
deriving DecidableEq, Repr

/-- A piece at the start of a type. -/
def typeStart (rule : LineRule) (p : Piece) (ps : List Piece) : Option TypeState :=
  if p.isSymbol '@' then some .attributeName
  else if p.isSymbol '~' then some .start
  else if p.isWordIn typeSpecifiers && typeFollows rule ps then some .start
  else if p.word?.isSome || p.isFramed .round || p.isFramed .square then some .after
  else none

/-- A piece behind a type. -/
def typeAfter (rule : LineRule) (p : Piece) (ps : List Piece) : Option TypeState :=
  let broken := rule = .ending && p.startsLine
  if p.isSymbol '<' && !broken then some (.angles 1 true)
  else if opensMember p ps then some (.member true)
  else if (p.isSymbol '?' || p.isSymbol '!') && p.isGlued then some .after
  else if p.isSymbol '&' && !broken then some .start
  else if p.isArrow then some .start
  else if leadsToArrow (p :: ps) then some .effects
  else none

/-- One piece of a type. -/
def typeNext (rule : LineRule) : TypeState → Piece → List Piece → Option TypeState
  | .start, p, ps => typeStart rule p ps
  | .attributeName, p, _ => if p.word?.isSome then some .behindAttribute else none
  | .behindAttribute, p, ps =>
    if p.isSymbol '<' && p.isGlued then some (.angles 1 false)
    else if opensMember p ps then some (.member false)
    else if p.isFramed .round && typeFollows rule ps && !leadsToArrow ps then some .start
    else typeStart rule p ps
  | .angles depth ofType, p, _ =>
    if p.isSymbol '<' then some (.angles (depth + 1) ofType)
    else if p.isSymbol '>' then
      if depth ≤ 1 then some (if ofType then .after else .behindAttribute)
      else some (.angles (depth - 1) ofType)
    else some (.angles depth ofType)
  | .member ofType, _, _ => some (if ofType then .after else .behindAttribute)
  | .after, p, ps => typeAfter rule p ps
  | .effects, p, _ => if p.isArrow then some .start else some .effects

/-- **The type at the front**, and what follows it. -/
def takeType (rule : LineRule) (ps : List Piece) : List Piece × List Piece :=
  takeRun (typeNext rule) .start ps

/-- One piece of the attributes in front of a type. -/
def typeAttributesNext (rule : LineRule) (state : TypeState) (p : Piece) (ps : List Piece) :
    Option TypeState :=
  match state with
  | .start => if p.isSymbol '@' then some .attributeName else none
  | .behindAttribute =>
    match typeNext rule .behindAttribute p ps with
    | some .attributeName => some .attributeName
    | some (.angles depth false) => some (.angles depth false)
    | some (.member false) => some (.member false)
    | some .start => if p.isFramed .round then some .start else none
    | _ => none
  | state => typeNext rule state p ps

/-- The attributes in front of a type. -/
def takeTypeAttributes (rule : LineRule) (ps : List Piece) : List Piece × List Piece :=
  takeRun (typeAttributesNext rule) .start ps

/-- Words that say how a value is passed. -/
def passingWords : List String :=
  ["inout", "borrowing", "consuming", "sending", "isolated", "__owned", "__shared", "_const",
    "nonisolated"]

/-- Attributes that say how a value is passed. -/
def passingAttributes : List String := ["escaping", "autoclosure"]

/-- Whether an attribute that says how a value is passed stands at the
front. -/
def opensPassing (p : Piece) : List Piece → Bool
  | q :: _ => p.isSymbol '@' && q.isGlued && q.isWordIn passingAttributes
  | [] => false

/-- What says how a result is passed, at the front of its type. -/
def takePassing (rule : LineRule) : List Piece → List Piece × List Piece
  | p :: q :: ps =>
    if opensPassing p (q :: ps) then
      let (taken, rest) := takePassing rule ps
      (p :: q :: taken, rest)
    else if p.isWordIn passingWords && typeFollows rule (q :: ps) then
      let (taken, rest) := takePassing rule (q :: ps)
      (p :: taken, rest)
    else ([], p :: q :: ps)
  | ps => ([], ps)

/-! ## Constraints -/

/-- The sign between the two sides of a constraint. -/
def takeRelation : List Piece → List Piece × List Piece
  | p :: q :: ps =>
    if p.isSymbol ':' then ([p], q :: ps)
    else if p.isSymbol '=' then
      if q.isSymbol '=' && q.isGlued then ([p, q], ps) else ([p], q :: ps)
    else ([], p :: q :: ps)
  | ps => ([], ps)

/-- The constraints at the front, separated by commas. -/
def takeConstraintList (rule : LineRule) : (fuel : Nat) → List Piece → List Piece × List Piece
  | 0, ps => ([], ps)
  | fuel + 1, ps =>
    let (subject, rest) := takeType rule ps
    let (relation, rest) := takeRelation rest
    let (object, rest) := if relation.isEmpty then ([], rest) else takeType rule rest
    let constraint := subject ++ relation ++ object
    match rest with
    | comma :: others =>
      if comma.isSymbol ',' && !constraint.isEmpty then
        let (more, rest) := takeConstraintList rule fuel others
        (constraint ++ comma :: more, rest)
      else (constraint, rest)
    | [] => (constraint, [])

/-- **The constraints behind `where`** at the front, if there are any. -/
def takeConstraints (rule : LineRule) (ps : List Piece) : List Piece × List Piece :=
  match ps with
  | p :: rest =>
    if p.isWord "where" then
      let (taken, rest) := takeConstraintList rule rest.length rest
      (p :: taken, rest)
    else ([], ps)
  | [] => ([], [])

end TestAccess.Source
