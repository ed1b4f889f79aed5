import TestAccess.Source.ExpressionRun
import TestAccess.Source.Part

/-!
# The clauses of a declaration

What declarations are made of: attributes and modifiers in front, and behind
the keyword generic parameters, lists of parameters, effects, a result,
constraints, what a type inherits from, and a body. Each clause has a reader
of its own, and a clause that is missing gives no part.
-/

namespace TestAccess.Source

/-! ## Attributes and modifiers -/

/-- Words that declare a member behind `class`. -/
def memberWords : List String := ["func", "var", "let", "subscript"]

/-- Modifiers that a declaration among statements may have. -/
def localModifiers : List String := ["weak", "unowned", "final", "lazy", "indirect"]

/-- Modifiers that are names as well. Among statements they are names at the
end of a line. -/
def contextualModifiers : List String := ["lazy", "package", "borrowing", "consuming"]

/-- Whether the keyword `class` modifies what follows it, and does not declare
a class. -/
def modifiesMember : List Piece → Bool
  | p :: ps =>
    p.isSymbol '@' || p.isWordIn memberWords ||
      (p.isWordIn modifierWords &&
        ps.head?.any fun q => q.word?.isSome || q.isSymbol '@' || isQualifier q)
  | [] => false

/-- Whether a line break follows that could end a statement. -/
def breakFollows : List Piece → Bool
  | p :: _ => p.startsLine
  | [] => true

/-- **Whether the word at the front modifies a declaration.** `behind` says
whether an attribute or a modifier stands before it. -/
def isModifier (ground : Ground) (behind : Bool) (p : Piece) (ps : List Piece) : Bool :=
  if p.isWord "class" then ground != .block && modifiesMember ps
  else if p.isWord "async" then ps.head?.any (·.isWordIn ["let", "var"])
  else if p.isWordIn contextualModifiers && ground.rule = .ending && breakFollows ps then false
  else p.isWordIn (if ground == .block && !behind then localModifiers else modifierWords)

/-- **The attributes and modifiers at the front**, in any order. What says how
a value is passed is no attribute, although it is written as one. -/
def takeModifiers (ground : Ground) : (fuel : Nat) → (behind : Bool) → List Piece → Reading
  | fuel + 1, behind, p :: ps =>
    if opensPassing p ps then
      let (others, rest) := takeModifiers ground fuel true (ps.drop 1)
      (Part.spanning "modifier" [] .closed (p :: ps.take 1) ++ others, rest)
    else if p.isSymbol '@' then
      let (taken, rest) := takeAttribute (p :: ps)
      let (others, rest) := takeModifiers ground fuel true rest
      (Part.spanning "attribute" [] .expression taken ++ others, rest)
    else if isModifier ground behind p ps then
      let (taken, rest) := takeModifier p ps
      let (others, rest) := takeModifiers ground fuel true rest
      (Part.spanning "modifier" [] .closed taken ++ others, rest)
    else ([], p :: ps)
  | _, _, ps => ([], ps)

/-- The attributes at the front. -/
def takeAttributes : (fuel : Nat) → List Piece → Reading
  | 0, ps => ([], ps)
  | fuel + 1, ps =>
    match takeAttribute ps with
    | ([], rest) => ([], rest)
    | (taken, rest) =>
      let (others, rest) := takeAttributes fuel rest
      (Part.spanning "attribute" [] .expression taken ++ others, rest)

/-! ## Generic parameters and constraints -/

/-- The generic parameters at the front. -/
def readGenerics : PartReader := optionally (asPart "type_parameters" [] .expression takeAngles)

/-- The constraints at the front. -/
def readConstraints (rule : LineRule) : PartReader :=
  optionally (asPart "type_constraints" [] .expression (takeConstraints rule))

/-- The type behind a colon or an equals sign. -/
def takeTypeBehind (kind : String) (sign : Char) (rule : LineRule) (ps : List Piece) : Reading :=
  match ps with
  | p :: rest =>
    if p.isSymbol sign then
      let (type, rest) := takeType rule rest
      (Part.spanning kind [] .expression (p :: type), rest)
    else ([], ps)
  | [] => ([], [])

/-! ## Parameters -/

/-- One piece of the names of a parameter. -/
def parameterNameNext (_ : Unit) (p : Piece) (_ : List Piece) : Option Unit :=
  if p.word?.isSome then some () else none

/-- The three dots behind the type of a parameter that takes any number of
values. -/
def takeEllipsis : List Piece → List Piece × List Piece
  | p :: q :: r :: ps =>
    if p.isSymbol '.' && q.isSymbol '.' && r.isSymbol '.' then ([p, q, r], ps)
    else ([], p :: q :: r :: ps)
  | ps => ([], ps)

/-- Operators of the language that are a value by themselves. -/
def operatorValues : List String :=
  ["<", ">", "<=", ">=", "==", "!=", "===", "!==", "+", "-", "*", "/", "%", "++", "--", "~", "|",
    "^", "<<", ">>", "&"]

/-- A default value. An operator of the language is only a token. -/
def valueParts (value : List Piece) : List Part :=
  let operator := String.ofList (value.filterMap Piece.symbol?)
  if operatorValues.contains operator && value.all (fun p => p.symbol?.isSome) then
    (Part.spanning "operator" [] .closed value).map fun part => { part with named := false }
  else Part.spanning "expression" [] .expression value

/-- The default value behind an equals sign, with the comments before it. -/
def takeDefault (ps : List Piece) : Reading :=
  match ps with
  | p :: rest =>
    if p.isSymbol '=' then
      let comments := (rest.head?.map Part.comments).getD []
      let (value, rest) := takeExpression { rule := .ignored } rest
      (Part.token p "=" :: comments ++ valueParts value, rest)
    else ([], ps)
  | [] => ([], [])

/-- **One parameter at the front**: its attributes, its names and type, and
its default value. -/
def takeParameter (ps : List Piece) : Reading :=
  let (attributes, rest) := takeAttributes ps.length ps
  let (names, rest) := takeRun parameterNameNext () rest
  match rest with
  | colon :: rest =>
    if colon.isSymbol ':' then
      let (type, rest) := takeType .ignored rest
      let (dots, rest) := takeEllipsis rest
      let (value, rest) := takeDefault rest
      (attributes ++ Part.spanning "parameter" [] .expression (names ++ colon :: type ++ dots) ++
        value, rest)
    else (attributes, colon :: rest)
  | [] => (attributes, [])

/-- The parameters between parentheses. A piece that fits nowhere is passed
over. -/
def parameterParts : (fuel : Nat) → List Piece → List Part
  | fuel + 1, p :: ps =>
    if p.isSymbol ',' then Part.token p "," :: parameterParts fuel ps
    else if p.isSymbol '@' || p.word?.isSome then
      let (parts, rest) := takeParameter (p :: ps)
      parts ++ parameterParts fuel rest
    else parameterParts fuel ps
  | _, _ => []

/-- The parenthesis at the end of a list of parameters. -/
def closingPart (p : Piece) : Part := { kind := ")", range := p.place.ending, named := false }

/-- One list of parameters, with the parenthesis at its end. -/
def parameterList (p : Piece) : List Part :=
  parameterParts (2 * p.parts.length) p.parts ++ [closingPart p]

/-- The lists of parameters at the front. -/
def takeParameterLists : List Piece → Reading
  | [] => ([], [])
  | p :: ps =>
    if p.isFramed .round then
      let (others, rest) := takeParameterLists ps
      (parameterList p ++ others, rest)
    else ([], p :: ps)

/-- The lists of parameters at the front, of which there must be one. -/
def readParameters : PartReader := necessarily takeParameterLists

/-! ## Effects and results -/

/-- The effects at the front. A clause that names the type of its errors is
of a kind of its own. -/
def takeEffects : (fuel : Nat) → List Piece → Reading
  | fuel + 1, p :: ps =>
    if p.isWordIn ["async", "reasync"] then
      let (others, rest) := takeEffects fuel ps
      (Part.token p "async" :: others, rest)
    else if p.isWordIn ["throws", "rethrows"] then
      match ps with
      | q :: rest =>
        if q.isFramed .round then
          let (others, rest) := takeEffects fuel rest
          (Part.spanning "throws_clause" [] .closed [p, q] ++ others, rest)
        else
          let (others, rest) := takeEffects fuel ps
          (Part.spanning "throws" [] .closed [p] ++ others, rest)
      | [] => (Part.spanning "throws" [] .closed [p], [])
    else ([], p :: ps)
  | _, ps => ([], ps)

/-- The effects at the front. -/
def readEffects : PartReader := optionally fun ps => takeEffects ps.length ps

/-- A type and the exclamation mark at its end, if it has one. -/
def splitForce (type : List Piece) : List Piece × List Piece :=
  match type.reverse with
  | p :: rest => if p.isSymbol '!' then (rest.reverse, [p]) else (type, [])
  | [] => ([], [])

/-- **The result at the front.** How it is passed is not part of its type. The
attributes of the type come before it, as a part in the same role, and the mark
of an implicitly unwrapped result behind it. -/
def takeResult (rule : LineRule) (ps : List Piece) : Reading :=
  match ps with
  | p :: rest =>
    if p.isArrow then
      let (passing, rest) := takePassing rule rest
      let (attributes, rest) := takeTypeAttributes rule rest
      let (type, rest) := takeType rule rest
      let (type, mark) := splitForce type
      (Part.token p "->" :: Part.spanning "parameter_modifiers" [] .closed passing ++
        Part.spanning "type_modifiers" ["return_type"] .expression attributes ++
        Part.spanning "type" ["return_type"] .expression type ++
        mark.map fun p => { Part.token p "!" with fields := ["return_type"] }, rest)
    else ([], ps)
  | [] => ([], [])

/-- The result at the front. -/
def readResult (rule : LineRule) : PartReader := optionally (takeResult rule)

/-! ## Inheritance and bodies -/

/-- One piece of what a type inherits from. -/
def inheritanceNext (_ : Unit) (p : Piece) (_ : List Piece) : Option Unit :=
  if p.isFramed .curly || p.isSymbol '@' || p.isWord "where" then none else some ()

/-- One piece of the constraints of a type. -/
def typeConstraintNext (_ : Unit) (p : Piece) (_ : List Piece) : Option Unit :=
  if p.isFramed .curly then none else some ()

/-- **What a type inherits from**, up to its body: the attributes in it are
attributes of the declaration, those behind `where` aside. -/
def takeInheritance : (fuel : Nat) → List Piece → Reading
  | fuel + 1, p :: ps =>
    if p.isFramed .curly then ([], p :: ps)
    else if p.isWord "where" then
      asPart "type_constraints" [] .expression (takeRun typeConstraintNext ()) (p :: ps)
    else if p.isSymbol '@' then
      let (taken, rest) := takeAttribute (p :: ps)
      let (others, rest) := takeInheritance fuel rest
      (Part.spanning "attribute" [] .expression taken ++ others, rest)
    else
      let (taken, rest) := takeRun inheritanceNext () (p :: ps)
      let (others, rest) := takeInheritance fuel rest
      (Part.spanning "inheritance_specifier" [] .expression taken ++ others, rest)
  | _, ps => ([], ps)

/-- What a type inherits from, behind a colon, and its constraints. -/
def readInheritance : PartReader := optionally fun ps =>
  match ps with
  | p :: _ => if p.isSymbol ':' || p.isWord "where" then takeInheritance ps.length ps else ([], ps)
  | [] => ([], [])

/-- The body at the front. -/
def takeBody (kind : String) (region : Region) (ps : List Piece) : Reading :=
  match ps with
  | p :: rest =>
    if p.isFramed .curly then ([Part.framed p kind region ["body"]], rest) else ([], ps)
  | [] => ([], [])

/-- The body of a function at the front. -/
def readFunctionBody : PartReader := optionally (takeBody "function_body" (.body .block))

end TestAccess.Source
