import TestAccess.Source.Clause

/-!
# Declarations and statements

On every ground the pieces are a list of items: declarations, and whatever
else stands there. A declaration is a run of attributes and modifiers, a
keyword, and the clauses that the keyword asks for. Of the other items only
the extent counts, so that nothing in the middle of one is taken for the start
of a declaration – `open` is a name in `state = open`, and a modifier at the
start of the next line.

Every reader here gives an item for any pieces, if only the first of them.
-/

namespace TestAccess.Source

/-! ## Declarations by keyword -/

/-- The operator at the front: glued symbols. -/
def operatorNext (started : Bool) (p : Piece) (_ : List Piece) : Option Bool :=
  if p.symbol?.isSome && (!started || p.isGlued) then some true else none

/-- Gives the angle at the end of an operator back if it opens generic
parameters: something is before it, and a name is glued to it. -/
def returnAngle (operator rest : List Piece) : List Piece × List Piece :=
  match operator.reverse, rest with
  | angle :: before :: others, next :: _ =>
    if angle.isSymbol '<' && next.isGlued && next.word?.isSome then
      ((before :: others).reverse, angle :: rest)
    else (operator, rest)
  | _, _ => (operator, rest)

/-- The name of a function: a word, or an operator. -/
def takeFunctionName (ps : List Piece) : Reading :=
  match ps with
  | p :: rest =>
    if p.word?.isSome then ([Part.name p "simple_identifier"], rest)
    else
      let (operator, rest) := takeRun operatorNext false ps
      let (operator, rest) := returnAngle operator rest
      (Part.spanning "custom_operator" ["name"] .closed operator, rest)
  | [] => ([], [])

/-- A function, behind its keyword. -/
def readFunction (rule : LineRule) (keyword : Piece) : PartReader :=
  inOrder [giving [Part.token keyword "func"], necessarily takeFunctionName, readGenerics,
    readParameters, readEffects, readResult rule, readConstraints rule, readFunctionBody]

/-- The mark behind `init`. -/
def takeMark (ps : List Piece) : Reading :=
  match ps with
  | p :: rest =>
    if p.isSymbol '?' then ([Part.token p "?"], rest)
    else if p.isSymbol '!' then ([Part.token p "!"], rest)
    else ([], ps)
  | [] => ([], [])

/-- An initializer, behind its keyword. -/
def readInitializer (rule : LineRule) (keyword : Piece) : PartReader :=
  inOrder [giving [{ Part.name keyword "init" with named := false }], optionally takeMark,
    readGenerics, readParameters, readEffects, readConstraints rule, readFunctionBody]

/-- A subscript, behind its keyword. -/
def readSubscript (rule : LineRule) (keyword : Piece) : PartReader :=
  inOrder [giving [Part.token keyword "subscript"], readGenerics, readParameters,
    readEffects, readResult rule, readConstraints rule,
    optionally (takeBody "computed_property" .accessors)]

/-- A deinitializer, behind its keyword. -/
def readDeinitializer (keyword : Piece) : PartReader :=
  inOrder [giving [Part.token keyword "deinit"],
    necessarily (takeBody "function_body" (.body .block))]

/-- The name of a type. -/
def takeTypeName (ps : List Piece) : Reading :=
  match ps with
  | p :: rest => if p.word?.isSome then ([Part.name p "type_identifier"], rest) else ([], ps)
  | [] => ([], [])

/-- A type alias or an associated type, behind its keyword: a name, and what
it stands for or must conform to. -/
def readAlias (rule : LineRule) (keyword : Piece) : PartReader :=
  inOrder [giving [Part.token keyword "typealias"], necessarily takeTypeName, readGenerics,
    optionally (takeTypeBehind "type_annotation" ':' rule), readConstraints rule,
    optionally (takeTypeBehind "type_value" '=' rule), readConstraints rule]

/-- A type or an extension, behind its keyword. The name of an extension is
any type. -/
def readType (rule : LineRule) (keyword : Piece) (text : String) : PartReader :=
  let name : List Piece → Reading :=
    if text = "extension" then asPart "user_type" ["name"] .closed (takeType rule)
    else takeTypeName
  let ground : Ground := if text = "protocol" then .requirements else .members
  inOrder [giving [{ Part.token keyword text with fields := ["declaration_kind"] }],
    necessarily name, readGenerics, readInheritance,
    necessarily (takeBody "class_body" (.body ground))]

/-! ## Properties -/

/-- The initial value at the front. -/
def takeValue (rule : LineRule) (ps : List Piece) : Reading :=
  match ps with
  | p :: rest =>
    if p.isSymbol '=' then
      let (value, rest) := takeExpression { rule, isInitial := true } rest
      (Part.token p "=" :: Part.spanning "expression" [] .expression value, rest)
    else ([], ps)
  | [] => ([], [])

/-- **The block of a property**: observers, or the code that computes it. -/
def propertyBlock (block : Piece) : Part :=
  if isObserverBlock block.parts then Part.framed block "willset_didset_block" .expression []
  else Part.framed block "computed_property" .accessors []

/-- The block at the front of what follows a binding. Behind an initial value
only observers can stand. -/
def takePropertyBlock (rule : LineRule) (initialized : Bool) (ps : List Piece) : Reading :=
  match ps with
  | p :: rest =>
    if p.isFramed .curly && !(rule = .ending && p.startsLine && p.isAside) &&
        (!initialized || isObserverBlock p.parts) then
      ([propertyBlock p], rest)
    else ([], ps)
  | [] => ([], [])

/-- **One binding at the front**: pattern, type, initial value and block. -/
def takeBinding (rule : LineRule) : PartReader
  | [] => none
  | pattern :: ps => do
    guard (pattern.word?.isSome || pattern.isFramed .round)
    let (type, rest) := takeTypeBehind "type_annotation" ':' rule ps
    let (constraints, rest) := asPart "type_constraints" [] .expression (takeConstraints rule) rest
    let (value, rest) := takeValue rule rest
    let (block, rest) := takePropertyBlock rule (!value.isEmpty) rest
    return (Part.name pattern "pattern" :: type ++ constraints ++ value ++ block, rest)

/-- The bindings of a property, separated by commas. -/
def takeBindings (rule : LineRule) : (fuel : Nat) → PartReader
  | 0, _ => none
  | fuel + 1, ps => do
    let (binding, rest) ← takeBinding rule ps
    match rest with
    | comma :: others =>
      if comma.isSymbol ',' then
        match takeBindings rule fuel others with
        | some (more, rest) => return (binding ++ Part.token comma "," :: more, rest)
        | none => return (binding, rest)
      else return (binding, rest)
    | [] => return (binding, [])

/-- A property, behind its keyword. -/
def readProperty (rule : LineRule) (keyword : Piece) : PartReader :=
  inOrder [giving (Part.spanning "value_binding_pattern" [] .closed [keyword]),
    fun ps => takeBindings rule ps.length ps]

/-! ## Declarations -/

/-- Words that declare nothing among statements. -/
def outerKeywords : List String := ["init", "deinit", "subscript", "protocol", "associatedtype"]

/-- **What a keyword asks for**: the kind of its declaration, and the reader of
what stands behind it. -/
def keywordReader? (ground : Ground) (keyword : Piece) (text : String) :
    Option (String × PartReader) :=
  if ground = .block && outerKeywords.contains text then none
  else
    let inProtocol := ground = .requirements
    match text with
    | "let" | "var" =>
      some (if inProtocol then "protocol_property_declaration" else "property_declaration",
        readProperty ground.rule keyword)
    | "func" =>
      some (if inProtocol then "protocol_function_declaration" else "function_declaration",
        readFunction ground.rule keyword)
    | "init" => some ("init_declaration", readInitializer ground.rule keyword)
    | "deinit" => some ("deinit_declaration", readDeinitializer keyword)
    | "subscript" => some ("subscript_declaration", readSubscript ground.rule keyword)
    | "typealias" => some ("typealias_declaration", readAlias ground.rule keyword)
    | "associatedtype" => some ("associatedtype_declaration", readAlias ground.rule keyword)
    | "protocol" => some ("protocol_declaration", readType ground.rule keyword text)
    | "class" | "struct" | "enum" | "actor" | "extension" =>
      some ("class_declaration", readType ground.rule keyword text)
    | _ => none

/-- A declaration, read into its parts. -/
structure DeclarationParts where
  kind : String
  start : Nat
  modifiers : List Part
  parts : List Part

/-- The declaration of a keyword at the front, behind some modifiers. -/
def readKeyword? (ground : Ground) (start : Nat) (modifiers : List Part) (ps : List Piece) :
    Option (DeclarationParts × List Piece) := do
  let keyword ← ps.head?
  let text ← keyword.word?
  let (kind, reader) ← keywordReader? ground keyword text
  let (parts, rest) ← reader ps.tail
  return ({ kind, start, modifiers, parts }, rest)

/-! ## Statements -/

/-- The pieces up to and including the first in braces; a semicolon ends them
before. -/
def bracesNext (closed : Bool) (p : Piece) (_ : List Piece) : Option Bool :=
  if closed || p.isSymbol ';' then none else some (p.isFramed .curly)

/-- The pieces up to and including the first colon; braces end them before. -/
def colonNext (closed : Bool) (p : Piece) (_ : List Piece) : Option Bool :=
  if closed || p.isFramed .curly then none else some (p.isSymbol ':')

/-- The pieces up to the end of the line. -/
def lineNext (_ : Unit) (p : Piece) (_ : List Piece) : Option Unit :=
  if p.startsLine || p.isSymbol ';' then none else some ()

/-- Words that lead up to a block. -/
def blockWords : List String := ["if", "guard", "while", "for", "switch", "catch", "else"]

/-- Words that lead up to a block only if it follows at once. -/
def bareBlockWords : List String := ["do", "repeat", "defer"]

/-- Words that hand on an expression. -/
def transferWords : List String := ["return", "throw", "yield", "break", "continue"]

/-- Words whose statement is one line. -/
def lineWords : List String := ["import", "operator"]

/-- Words of conditional compilation that a condition follows. -/
def conditionDirectives : List String := ["if", "elseif"]

/-- The expression at the front, if it stands on the line before. -/
def takeSameLine (ps : List Piece) : List Piece × List Piece :=
  if breakFollows ps then ([], ps) else takeExpression { rule := .ending } ps

/-- The condition behind a loop that tests it last. -/
def takeLastCondition (ps : List Piece) : List Piece × List Piece :=
  match ps with
  | p :: rest =>
    if p.isWord "while" then
      let (taken, rest) := takeExpression { rule := .ending } rest
      (p :: taken, rest)
    else ([], ps)
  | [] => ([], [])

/-- A statement that a word opens, if the word makes one. -/
def takeKeywordStatement? (text : String) (p : Piece) (ps : List Piece) :
    Option (List Piece × List Piece) :=
  if blockWords.contains text then some (takeRun bracesNext false (p :: ps))
  else if bareBlockWords.contains text && ps.head?.any (Piece.isFramed .curly) then
    let (taken, rest) := takeLastCondition (ps.drop 1)
    some (p :: ps.take 1 ++ taken, rest)
  else if text = "case" || (text = "default" && ps.head?.any (·.isSymbol ':')) then
    some (takeRun colonNext false (p :: ps))
  else if transferWords.contains text then
    let (taken, rest) := takeSameLine ps
    some (p :: taken, rest)
  else if lineWords.contains text then
    let (taken, rest) := takeRun lineNext () ps
    some (p :: taken, rest)
  else none

/-- A directive of conditional compilation, behind its number sign. -/
def takeDirective? (ps : List Piece) : Option (List Piece × List Piece) :=
  match ps with
  | q :: rest =>
    if q.isWordIn conditionDirectives then
      let (taken, rest) := takeExpression { rule := .ending } rest
      some (q :: taken, rest)
    else if q.isWordIn ["else", "endif"] then some ([q], rest)
    else none
  | [] => none

/-- **The statement at the front**, which has at least one piece. -/
def takeStatement (p : Piece) (ps : List Piece) : List Piece × List Piece :=
  let special :=
    match p.word? with
    | some text => takeKeywordStatement? text p ps
    | none =>
      if p.isSymbol '#' then (takeDirective? ps).map fun (taken, rest) => (p :: taken, rest)
      else none
  match special with
  | some taken => taken
  | none =>
    match takeExpression { rule := .ending } (p :: ps) with
    | ([], _) => ([p], ps)
    | taken => taken

/-! ## Cases of an enumeration -/

/-- What may follow the name of a case: the values that go with it, or its
raw value. -/
def takeCaseSuffix (ps : List Piece) : List Piece × List Piece :=
  match ps with
  | p :: rest =>
    if p.isFramed .round then ([p], rest)
    else if p.isSymbol '=' then
      let (taken, rest) := takeExpression { rule := .yielding } rest
      (p :: taken, rest)
    else ([], ps)
  | [] => ([], [])

/-- The names of cases, separated by commas. -/
def takeCases : (fuel : Nat) → List Piece → List Piece × List Piece
  | fuel + 1, p :: ps =>
    if p.word?.isSome then
      let (suffix, rest) := takeCaseSuffix ps
      match rest with
      | comma :: others =>
        if comma.isSymbol ',' then
          let (more, rest) := takeCases fuel others
          (p :: suffix ++ comma :: more, rest)
        else (p :: suffix, rest)
      | [] => (p :: suffix, [])
    else ([], p :: ps)
  | _, ps => ([], ps)

/-- What else stands among the members of a type: cases, directives, or
anything else piece by piece. -/
def takeMember (p : Piece) (ps : List Piece) : List Piece × List Piece :=
  if p.isWord "case" then
    let (taken, rest) := takeCases ps.length ps
    (p :: taken, rest)
  else
    match (if p.isSymbol '#' then takeDirective? ps else none) with
    | some (taken, rest) => (p :: taken, rest)
    | none => ([p], ps)

/-! ## Items -/

/-- **What stands at the front of a ground.** -/
inductive Item where
  | declaration (declaration : DeclarationParts)
  /-- Pieces that are passed over, and may have something inside. -/
  | other (pieces : List Piece)

/-- What is no declaration at the front of a ground, behind some modifiers. -/
def takeOther (ground : Ground) (modifiers : List Part) (ps : List Piece) :
    List Piece × List Piece :=
  match modifiers, ps with
  | [], p :: rest =>
    match ground with
    | .source | .block => takeStatement p rest
    | .members | .requirements => takeMember p rest
  | modifiers, ps => (modifiers.flatMap Part.pieces, ps)

/-- **The item at the front**, and what follows it. Modifiers without a
declaration are an item of their own. The fuel bounds the number of
modifiers. -/
def takeItem (fuel : Nat) (ground : Ground) (first : Piece) (ps : List Piece) :
    Item × List Piece :=
  let (modifiers, rest) := takeModifiers ground fuel false (first :: ps)
  match readKeyword? ground first.range.start modifiers rest with
  | some (declaration, rest) => (.declaration declaration, rest)
  | none =>
    let (taken, rest) := takeOther ground modifiers rest
    (.other taken, rest)

end TestAccess.Source
