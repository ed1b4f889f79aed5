import TestAccess.Request.Json
import TestAccess.Tree.Lowering

/-!
# Annotated sites

A site is a declaration that carries the annotation, with everything the later
steps need: the request for its accessors, the ranges of declaration and
annotation, and the indentation of the line it begins on. A scan finds the
sites of a tree in the order in which their declarations begin.
-/

namespace TestAccess

/-- **A declaration that carries the annotation**, in its source. -/
structure Site where
  request : Request
  declaration : ByteRange
  marker : ByteRange
  indentation : String
deriving DecidableEq, Repr

namespace Site

/-- The line on which the declaration begins. -/
def line (s : Site) : Nat :=
  match s.request.anchor.span with
  | some span => span.startLine
  | none => 0

/-- **A site is written** with its request, its two ranges and its indentation. -/
def toJson (s : Site) : Json :=
  .object [("request", s.request.toJson),
    ("declaration_range",
      .object [("start", .nat s.declaration.start), ("end", .nat s.declaration.stop)]),
    ("annotation_range",
      .object [("start", .nat s.marker.start), ("end", .nat s.marker.stop)]),
    ("indentation", .text s.indentation)]

end Site

namespace Node

/-- The kinds of nodes that may be annotated. Only the first three have
accessors; an annotation on another is found, and gives nothing. -/
def declarationKinds : List String :=
  ["property_declaration", "function_declaration", "init_declaration", "subscript_declaration",
    "deinit_declaration", "typealias_declaration", "class_declaration", "protocol_declaration",
    "protocol_function_declaration", "protocol_property_declaration",
    "associatedtype_declaration"]

/-- Whether a node may be annotated. -/
def isDeclaration (n : Node) : Bool := declarationKinds.contains n.kind

/-- The number of the line that an offset lies on, counted from one. It is
held in 32 bits and stops at their largest value. -/
def lineNumber (source : List Char) (offset : Nat) : Nat :=
  min (Chars.lineAt source offset + 1) (UInt32.size - 1)

/-- The place of a node. -/
def span (source : List Char) (n : Node) : Span :=
  { startLine := lineNumber source n.range.start, endLine := lineNumber source n.range.stop,
    startByte := n.range.start, endByte := n.range.stop }

namespace Occurrence

/-- The request for a declaration in its tree. -/
def request (source : List Char) (marker : String) (o : Occurrence) : Request :=
  let declaration := Declaration.ofNode source o.node
  { declaration,
    attributes := o.node.otherAttributes source marker,
    anchor := { description := declaration.describe, span := some (o.node.span source) },
    enclosing := o.enclosing? source }

/-- **The site of an occurrence**, if it is a declaration with the
annotation. -/
def site? (source : List Char) (marker : String) (o : Occurrence) : Option Site :=
  if o.node.isDeclaration then
    (o.node.marker? source marker).map fun a =>
      { request := o.request source marker,
        declaration := o.node.range,
        marker := a.range,
        indentation := String.ofList (Chars.indentationAt source o.node.range.start) }
  else none

end Occurrence

/-- **The sites of a tree**, in the order in which their declarations begin;
of two that begin together the outer one comes first. -/
def scan (source : String) (marker : String) (root : Node) : List Site :=
  (root.walk.filterMap (Occurrence.site? source.toList marker)).mergeSort
    fun a b => a.declaration.start ≤ b.declaration.start

end Node

end TestAccess
