import TestAccess.Source.Item

/-!
# The outline of a Swift source

The outline of a source is the tree of its declarations: each with the parts
that say what it declares, and with the declarations inside it wherever they
stand – in bodies, closures, default values, or the code in a string. What is
not part of a declaration leaves no node, and an expression is a node only
because it has an extent and may hold declarations.

The outline is found by going over the items of a ground one after another. A
declaration becomes a node of its parts, with the outline of what is inside
each part below it; of any other item only the inside is looked at. Since each
step either goes to the next item or one bracket deeper, the number of pieces
in a source bounds the steps and serves as fuel.
-/

namespace TestAccess.Source

/-! ## Clauses of a computed property -/

/-- Words that open the clause of a computed property, with the kind of the
clause. -/
def accessorClauses : List (String × String) :=
  [("get", "computed_getter"), ("set", "computed_setter"), ("_modify", "computed_modify"),
    ("_read", "computed_getter")]

/-- The kind of the clause that a piece opens. -/
def accessorClause? (p : Piece) : Option String := p.word?.bind fun w => accessorClauses.lookup w

/-- Modifiers of a clause. -/
def clauseModifiers : List String := ["mutating", "nonmutating", "__consuming"]

/-- The rest of a clause: everything up to its block, or up to the next
clause. -/
def clauseNext (closed : Bool) (p : Piece) (_ : List Piece) : Option Bool :=
  if closed || (accessorClause? p).isSome || p.isSymbol '@' then none
  else some (p.isFramed .curly)

/-- Whether what follows the word of a clause can belong to it. -/
def clauseGoesOn : List Piece → Bool
  | [] => true
  | p :: ps =>
    p.isFramed .curly || (accessorClause? p).isSome || p.isSymbol '@' ||
      p.isWordIn ("async" :: "throws" :: clauseModifiers) ||
      (p.isFramed .round && ps.head?.any (Piece.isFramed .curly))

/-- Whether the pieces in braces are clauses, and not statements: the first
word, attributes and modifiers aside, opens a clause. -/
def isAccessorBlock (parts : List Piece) : Bool :=
  match skipModifiers clauseModifiers parts.length parts with
  | p :: ps => (accessorClause? p).isSome && clauseGoesOn ps
  | [] => false

/-- The clauses of a computed property, and the attributes between them. -/
def clauseParts : (fuel : Nat) → List Piece → List Part
  | fuel + 1, p :: ps =>
    match accessorClause? p with
    | some kind =>
      let (taken, rest) := takeRun clauseNext false ps
      Part.spanning kind [] .expression (p :: taken) ++ clauseParts fuel rest
    | none =>
      if p.isSymbol '@' then
        let (taken, rest) := takeAttribute (p :: ps)
        Part.spanning "attribute" [] .expression taken ++ clauseParts fuel rest
      else clauseParts fuel ps
  | _, _ => []

/-! ## Nodes -/

/-- The node of a part, given the outline of what is inside. -/
def Part.node (inside : Region → List Piece → List Node) (part : Part) : Node :=
  .mk part.kind part.range part.named part.fields (inside part.region part.pieces)

/-- The nodes of the modifiers of a declaration. Among statements they are
parts of the declaration itself, elsewhere they make up one list. -/
def modifierNodes (ground : Ground) (modifiers : List Node) : List Node :=
  match ground, modifiers with
  | .block, modifiers => modifiers
  | _, [] => []
  | _, m :: ms =>
    [.mk "modifiers" ⟨m.range.start, (ms.getLast?.getD m).range.stop⟩ true [] (m :: ms)]

/-- The node of a declaration, which ends where its last part ends. -/
def DeclarationParts.node (ground : Ground) (inside : Region → List Piece → List Node)
    (d : DeclarationParts) : Node :=
  let stop := (d.parts.getLast?.map fun part => part.range.stop).getD d.start
  .mk d.kind ⟨d.start, stop⟩ true []
    (modifierNodes ground (d.modifiers.map (Part.node inside)) ++ d.parts.map (Part.node inside))

/-! ## The walk -/

/-- **The declarations in a region**, with the declarations inside them. -/
def outline : (fuel : Nat) → Region → List Piece → List Node
  | 0, _, _ => []
  | _, _, [] => []
  | _, .closed, _ => []
  | fuel + 1, .expression, ps => ps.flatMap fun p => outline fuel (.body .block) p.parts
  | fuel + 1, .accessors, ps =>
    if isAccessorBlock ps then (clauseParts ps.length ps).map (Part.node (outline fuel))
    else outline fuel (.body .block) ps
  | fuel + 1, .body ground, p :: ps =>
    match takeItem fuel ground p ps with
    | (.declaration d, rest) => d.node ground (outline fuel) :: outline fuel (.body ground) rest
    | (.other taken, rest) =>
      outline fuel .expression taken ++ outline fuel (.body ground) rest

/-- The number of pieces, those inside others included. -/
def weight : List Piece → Nat
  | [] => 0
  | .leaf _ _ :: ps => 1 + weight ps
  | .nested _ _ parts :: ps => 1 + weight parts + weight ps

/-- **The outline of a source.** -/
def parse (source : String) : Node :=
  let chars := source.toList
  let ps := pieces chars
  .mk "source_file" ⟨0, Chars.width chars⟩ true [] (outline (3 * weight ps + 3) (.body .source) ps)

end TestAccess.Source
