import TestAccess.Accessor

/-!
# Accessors as Swift text

There are two layouts, one with a line for each statement and one on a single
line. Both are made by one function for a braced block, which is the only
place that looks at the layout besides the separators: the two texts of an
accessor differ in nothing but the blanks around its braces and statements.
-/

namespace TestAccess

/-- How accessors are laid out. -/
inductive Layout where
  | expanded
  | compact
deriving DecidableEq, Repr

/-- **A way of writing accessors**: a layout, and the number of spaces per
level of indentation. -/
structure Rendering where
  layout : Layout := .expanded
  indentWidth : Nat := 4
deriving DecidableEq, Repr

namespace Rendering

/-- The indentation of a level. -/
def indent (r : Rendering) (level : Nat) : String :=
  String.ofList (List.replicate (r.indentWidth * level) ' ')

/-- **A block in braces** behind a header, at a level of indentation. -/
def block (r : Rendering) (level : Nat) (header : String) (items : List String) : String :=
  match r.layout with
  | .compact => header ++ " \x7b" ++ Text.join "" (items.map fun t => " " ++ t) ++ " \x7d"
  | .expanded =>
    header ++ " \x7b\n" ++ Text.join "" (items.map fun t => r.indent (level + 1) ++ t ++ "\n") ++
      r.indent level ++ "\x7d"

/-- What stands between an attribute and what follows it. -/
def attributeSeparator (r : Rendering) : String :=
  match r.layout with
  | .expanded => "\n"
  | .compact => " "

/-- What stands between two accessors. -/
def accessorSeparator (r : Rendering) : String :=
  match r.layout with
  | .expanded => "\n\n"
  | .compact => " "

/-! ## The parts of an accessor -/

/-- The keyword of a member of the type itself. -/
def staticKeyword (isStatic : Bool) : String := if isStatic then "static " else ""

/-- An optional text with something in front of it. -/
def behind (lead : String) : Option String → String
  | some text => lead ++ text
  | none => ""

/-- A parameter in the signature of a function. -/
def parameter (p : AccessorParameter) : String :=
  p.label.text ++ " " ++ p.name ++ ": " ++ p.type ++ behind " = " p.defaultValue

/-- An argument of a call. -/
def argument (a : Argument) : String :=
  let value := (if a.isInout then "&" else "") ++ a.value
  match a.label with
  | some label => label ++ ": " ++ value
  | none => value

/-- A call. -/
def call (c : ForwardingCall) : String :=
  (if c.isTry then "try " else "") ++ (if c.isAwait then "await " else "") ++ c.callee ++ "(" ++
    Text.join ", " (c.arguments.map argument) ++ ")"

/-- The head of a property. -/
def propertyHeader (p : AccessorProperty) : String :=
  "public " ++ staticKeyword p.isStatic ++ "var " ++ p.name ++ ": " ++ p.type

/-- The head of a function. -/
def functionHeader (f : AccessorFunction) : String :=
  "public " ++ staticKeyword f.isStatic ++ "func " ++ f.name ++ behind "" f.genericParams ++ "(" ++
    Text.join ", " (f.parameters.map parameter) ++ ")" ++
    (if f.effects.isAsync then " async" else "") ++ behind " " f.effects.throwing ++
    behind " -> " f.returnType ++ behind " " f.whereClause

/-- A property: a getter, and a setter if it can be assigned. -/
def property (r : Rendering) (p : AccessorProperty) : String :=
  let getter := r.block 1 "get" [p.target]
  let setter := r.block 1 "set" [p.target ++ " = newValue"]
  r.block 0 (propertyHeader p) (if p.settable then [getter, setter] else [getter])

/-- A function: its call. -/
def function (r : Rendering) (f : AccessorFunction) : String :=
  r.block 0 (functionHeader f) [call f.body]

/-- An accessor without its attributes. -/
def body (r : Rendering) : AccessorKind → String
  | .property p => r.property p
  | .function f => r.function f

/-- **The text of an accessor**: its attributes, then its body. -/
def render (r : Rendering) (a : Accessor) : String :=
  if a.attributes.isEmpty then r.body a.kind
  else Text.join r.attributeSeparator a.attributes ++ r.attributeSeparator ++ r.body a.kind

/-- **The text of several accessors.** -/
def renderAll (r : Rendering) (accessors : List Accessor) : String :=
  Text.join r.accessorSeparator (accessors.map r.render)

end Rendering

end TestAccess
