import TestAccess.Text.Offset

/-!
# Nodes of a source tree

A parsed source is a tree of nodes. A node knows its kind, the range of bytes
it covers, whether it stands for a construct or only for a token of one
(`named`), and the roles it plays in its parent (`fields`). Its text is not
stored: it is the slice of the source under its range, so that a tree and a
source can be considered apart.

The walk of a tree is the list of its nodes in pre-order, each with the chain
of its ancestors. A node's own place is thus all that a question about "the
nearest enclosing …" has to look at.
-/

namespace TestAccess

/-- **A node of a source tree.** -/
inductive Node where
  | mk (kind : String) (range : ByteRange) (named : Bool) (fields : List String)
      (children : List Node)

namespace Node

/-- What construct or token the node is. -/
def kind : Node → String
  | .mk kind _ _ _ _ => kind

/-- The bytes that the node covers. -/
def range : Node → ByteRange
  | .mk _ range _ _ _ => range

/-- Whether the node is a construct, and not only a token. -/
def named : Node → Bool
  | .mk _ _ named _ _ => named

/-- The roles of the node in its parent. -/
def fields : Node → List String
  | .mk _ _ _ fields _ => fields

/-- The parts of the node, in order. -/
def children : Node → List Node
  | .mk _ _ _ _ children => children

/-- **The text of a node** is the source under its range. -/
def text (source : List Char) (n : Node) : String :=
  String.ofList (Chars.slice source n.range.start n.range.stop)

/-- The first part that has the given role. -/
def field? (n : Node) (role : String) : Option Node :=
  n.children.find? fun c => c.fields.contains role

/-- The first part of the given kind. -/
def child? (n : Node) (kind : String) : Option Node := n.children.find? fun c => c.kind == kind

/-- A node together with its ancestors, the nearest first. -/
structure Occurrence where
  node : Node
  ancestors : List Node

mutual

/-- The occurrences of a node and all below it, in pre-order. -/
def occurrences (ancestors : List Node) : Node → List Occurrence
  | .mk kind range named fields children =>
    let node := Node.mk kind range named fields children
    ⟨node, ancestors⟩ :: occurrencesOfAll (node :: ancestors) children

/-- The occurrences of several nodes and all below them, in pre-order. -/
def occurrencesOfAll (ancestors : List Node) : List Node → List Occurrence
  | [] => []
  | n :: ns => occurrences ancestors n ++ occurrencesOfAll ancestors ns

end

/-- **The walk of a tree**: every node in pre-order, with its ancestors. -/
def walk (root : Node) : List Occurrence := occurrences [] root

end Node

end TestAccess
