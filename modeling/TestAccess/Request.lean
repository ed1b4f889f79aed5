import TestAccess.Declaration

/-!
# Requests, anchors and diagnostics

A request is one annotated declaration together with what its accessor may
depend on: the other attributes, the type it is declared in, and an anchor
that says where it stands. A diagnostic is a message about an anchor.
-/

namespace TestAccess

/-- The place of a declaration: lines count from one, byte offsets from zero,
and the end is exclusive. -/
structure Span where
  startLine : Nat
  endLine : Nat
  startByte : Nat
  endByte : Nat
deriving DecidableEq, Repr

/-- What a diagnostic refers to. -/
structure Anchor where
  description : String
  span : Option Span := none
deriving DecidableEq, Repr

/-! ## Enclosing types -/

/-- The keyword that declares a type or extends one. -/
inductive TypeKeyword where
  | classType
  | structType
  | enumType
  | actorType
  | extensionType
  | protocolType
deriving DecidableEq, Repr

namespace TypeKeyword

/-- The keyword as written. -/
def text : TypeKeyword → String
  | .classType => "class"
  | .structType => "struct"
  | .enumType => "enum"
  | .actorType => "actor"
  | .extensionType => "extension"
  | .protocolType => "protocol"

/-- All keywords with their texts. -/
def table : List (String × TypeKeyword) :=
  [("class", .classType), ("struct", .structType), ("enum", .enumType), ("actor", .actorType),
    ("extension", .extensionType), ("protocol", .protocolType)]

/-- Reads a keyword. -/
def ofText? (text : String) : Option TypeKeyword := table.lookup text

/-- A keyword is read back. -/
@[simp] theorem ofText?_text (k : TypeKeyword) : ofText? k.text = some k := by
  cases k <;> decide +kernel

end TypeKeyword

/-- The type that a member is declared in. -/
structure EnclosingType where
  keyword : TypeKeyword
  name : Option String := none
  isFinal : Bool := false
deriving DecidableEq, Repr

/-- **Whether the type can have subclasses.** An extension or a protocol may
belong to a class or to a value type; the text does not tell, and the answer
is `none`. -/
def EnclosingType.isSubclassable (t : EnclosingType) : Option Bool :=
  match t.keyword with
  | .classType => some !t.isFinal
  | .structType | .enumType | .actorType => some false
  | .extensionType | .protocolType => none

/-! ## Requests -/

/-- **A request for accessors.** -/
structure Request where
  declaration : Declaration
  /-- The attributes beside the annotation, as written and in order. -/
  attributes : List String := []
  anchor : Anchor
  enclosing : Option EnclosingType := none
deriving DecidableEq, Repr

/-- A request about a declaration alone, anchored on its description. -/
def Request.ofDeclaration (d : Declaration) : Request :=
  { declaration := d, anchor := { description := d.describe } }

/-! ## Diagnostics -/

/-- How serious a diagnostic is. -/
inductive Severity where
  | error
deriving DecidableEq, Repr

/-- The word for a severity. -/
def Severity.text : Severity → String
  | .error => "error"

/-- **A message about a declaration.** -/
structure Diagnostic where
  severity : Severity := .error
  message : String
  anchor : Anchor
deriving DecidableEq, Repr

/-- A diagnostic in one line, with its line number where the place is
known. -/
def Diagnostic.display (d : Diagnostic) : String :=
  let line :=
    match d.anchor.span with
    | some span => toString span.startLine ++ ": "
    | none => ""
  line ++ d.severity.text ++ ": " ++ d.message ++ " (" ++ d.anchor.description ++ ")"

end TestAccess
