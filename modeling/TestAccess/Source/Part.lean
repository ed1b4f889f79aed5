import TestAccess.Source.Run
import TestAccess.Tree.Node

/-!
# Parts of a declaration

A declaration is read into a flat list of parts, each a run of pieces with the
role that the run plays. What is inside a part – the members of a body, the
statements of a closure in a default value – is not read along with it: a part
only keeps its pieces and says what they are to be looked at as. So a reader
goes once over the pieces of a declaration, whatever is nested in them, and
the inside of each part is looked at once, later.

A reader takes parts from the front of some pieces, or refuses. Readers are
put one after another with `inOrder`.
-/

namespace TestAccess.Source

/-- Where declarations stand, which decides what can be declared there and how
line breaks count. -/
inductive Ground where
  /-- At the top of a source. -/
  | source
  /-- In the body of a function, a closure, or a branch. -/
  | block
  /-- In a type or an extension. -/
  | members
  /-- In a protocol. -/
  | requirements
deriving DecidableEq, Repr

/-- How line breaks count on a ground. -/
def Ground.rule : Ground → LineRule
  | .members => .yielding
  | .source | .block | .requirements => .ending

/-- What the pieces of a part are to be looked at as. -/
inductive Region where
  /-- There is nothing to look for. -/
  | closed
  /-- Statements can only be nested in the pieces. -/
  | expression
  /-- The pieces are the contents of a body. -/
  | body (ground : Ground)
  /-- The pieces are what computes a property: clauses, or statements. -/
  | accessors
deriving DecidableEq, Repr

/-- **A part of a declaration.** -/
structure Part where
  kind : String
  range : ByteRange
  /-- Whether the part is a construct, and not only a token. -/
  named : Bool := true
  /-- The roles of the part in the declaration. -/
  fields : List String := []
  region : Region := .closed
  pieces : List Piece := []

namespace Part

/-- A token. -/
def token (p : Piece) (kind : String) : Part :=
  { kind, range := p.range, named := false, pieces := [p] }

/-- A name in the role of the name. -/
def name (p : Piece) (kind : String) : Part :=
  { kind, range := p.range, fields := ["name"], pieces := [p] }

/-- The inside of a bracket, as a construct that reaches over the bracket. -/
def framed (p : Piece) (kind : String) (region : Region) (fields : List String) : Part :=
  { kind, range := p.range, fields, region, pieces := p.parts }

/-- A construct over a run of pieces, if the run is not empty. -/
def spanning (kind : String) (fields : List String) (region : Region) : List Piece → List Part
  | [] => []
  | p :: ps => [{ kind, range := rangeOf p ps, fields, region, pieces := p :: ps }]

/-- The comments in front of a piece, which are constructs of their own. -/
def comments (p : Piece) : List Part :=
  p.place.lead.comments.map fun range => { kind := "comment", range }

end Part

/-- What has been read: some parts, and the pieces behind them. -/
abbrev Reading := List Part × List Piece

/-- **A reader** takes parts from the front of some pieces, or refuses. -/
abbrev PartReader := List Piece → Option Reading

/-- Readers one after another. -/
def inOrder : List PartReader → PartReader
  | [], ps => some ([], ps)
  | reader :: readers, ps =>
    (reader ps).bind fun (parts, rest) =>
      (inOrder readers rest).map fun (others, rest) => (parts ++ others, rest)

/-- A reader that never refuses. -/
def optionally (read : List Piece → Reading) : PartReader := fun ps => some (read ps)

/-- A reader of parts that have to be there. -/
def necessarily (read : List Piece → Reading) : PartReader := fun ps =>
  match read ps with
  | ([], _) => none
  | reading => some reading

/-- A reader that takes nothing and gives the given parts. -/
def giving (parts : List Part) : PartReader := fun ps => some (parts, ps)

/-- A run of pieces as one part. -/
def asPart (kind : String) (fields : List String) (region : Region)
    (take : List Piece → List Piece × List Piece) (ps : List Piece) : Reading :=
  let (taken, rest) := take ps
  (Part.spanning kind fields region taken, rest)

end TestAccess.Source
