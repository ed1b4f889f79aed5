import TestAccess.Request
import TestAccess.Tree.Attribute

/-!
# Declarations from nodes

A declaration is read from the parts of its node in one pass from left to
right. Parts are told apart by their kind only, and what belongs together is
told by nearness: a type, an initial value or a block of accessors belongs to
the last pattern before it, and a default value to the last parameter. The
texts that are taken over have their blanks collapsed, parameters and default
values aside.
-/

namespace TestAccess

namespace Node

/-- The text of the first part of a kind, with its blanks collapsed. -/
def childText? (source : List Char) (n : Node) (kind : String) : Option String :=
  (n.child? kind).map fun c => Text.collapse (c.text source)

end Node

/-! ## Properties -/

/-- The pattern on the left of a binding. -/
def Pattern.ofText (text : String) : Pattern :=
  let text := Text.trim text
  if Naming.isIdentifier text then .identifier text else .destructured (Text.collapse text)

/-- The type in an annotation, which opens with a colon. -/
def annotatedType? (text : String) : Option String :=
  let type := Chars.collapse ((Chars.trim text.toList).dropWhile (· == ':'))
  if type = [] then none else some (String.ofList type)

/-- How a computed property is accessed: it can be assigned if one of its
clauses sets or modifies. -/
def Storage.ofComputed (n : Node) : Storage :=
  .computed (n.children.any fun c => c.kind == "computed_setter" || c.kind == "computed_modify")

/-- A binding, with the mark whether it has an initial value. -/
structure MarkedBinding where
  binding : Binding
  isInitialized : Bool := false
deriving DecidableEq, Repr

/-- **Types reach back.** In `var a, b: Int` the type of `b` is also that of
`a`: a binding with neither a type nor an initial value takes the type of the
next binding that has one, unless a binding with an inferred type stands in
between. The second component is the type that reaches further back. -/
def shareTypes : List MarkedBinding → List Binding × Option String
  | [] => ([], none)
  | m :: rest =>
    let (bindings, reaching) := shareTypes rest
    match m.binding.declaredType with
    | some type => (m.binding :: bindings, some type)
    | none =>
      if m.isInitialized then (m.binding :: bindings, none)
      else ({ m.binding with declaredType := reaching } :: bindings, reaching)

/-- What has been read of a property declaration: its mutability, and its
bindings with the last one in front. -/
structure PropertyReading where
  mutability : Mutability := .mutable
  bindings : List MarkedBinding := []

namespace PropertyReading

/-- Changes the last binding, if there is one. -/
def updateLast (r : PropertyReading) (f : MarkedBinding → MarkedBinding) : PropertyReading :=
  match r.bindings with
  | [] => r
  | m :: ms => { r with bindings := f m :: ms }

/-- Reads one part of a property declaration. -/
def step (source : List Char) (r : PropertyReading) (part : Node) : PropertyReading :=
  match part.kind with
  | "value_binding_pattern" =>
    if (Text.words (part.text source)).contains "let" then { r with mutability := .immutable }
    else r
  | "pattern" =>
    { r with
      bindings := { binding := { pattern := .ofText (part.text source) } } :: r.bindings }
  | "=" => r.updateLast fun m => { m with isInitialized := true }
  | "type_annotation" =>
    r.updateLast fun m =>
      { m with binding.declaredType := annotatedType? (part.text source) }
  | "computed_property" =>
    r.updateLast fun m => { m with binding.storage := .ofComputed part }
  | "willset_didset_block" => r.updateLast fun m => { m with binding.storage := .observed }
  | _ => r

end PropertyReading

/-- **Reads a property declaration.** -/
def Property.ofNode (source : List Char) (n : Node) : Property :=
  let reading := n.children.foldl (PropertyReading.step source) {}
  let bindings := (shareTypes reading.bindings.reverse).1
  let bindings :=
    match bindings, n.field? "name" with
    | [], some name =>
      [{ pattern := .ofText (name.text source),
         declaredType := (n.childText? source "type_annotation").bind annotatedType? }]
    | bindings, _ => bindings
  { mutability := reading.mutability, bindings, isStatic := n.isTypeMember source }

/-! ## Parameters and effects -/

/-- Reads a parameter: names, a colon, a type. The first name is the label,
and a lone name serves as both label and name. -/
def Parameter.ofText? (text : String) : Option Parameter :=
  match Chars.splitFirst? (· == ':') text.toList with
  | none => none
  | some (names, type) =>
    match Chars.words names, Chars.trim type with
    | [], _ => none
    | _, [] => none
    | label :: _, type =>
      some { label := .ofText (String.ofList label), type := String.ofList type }

/-- What has been read of a list of parameters, the last one in front. -/
structure ParameterReading where
  parameters : List Parameter := []
  expectsDefault : Bool := false

namespace ParameterReading

/-- Gives the last parameter a default value. -/
def setDefault (r : ParameterReading) (value : String) : ParameterReading :=
  match r.parameters with
  | [] => { r with expectsDefault := false }
  | p :: ps => { parameters := { p with defaultValue := some value } :: ps, expectsDefault := false }

/-- Reads one part of a declaration for its parameters: after an equals sign,
the next construct is the default value. -/
def step (source : List Char) (r : ParameterReading) (part : Node) : ParameterReading :=
  if part.kind = "parameter" then
    { parameters := (Parameter.ofText? (part.text source)).toList ++ r.parameters,
      expectsDefault := false }
  else if part.kind = "=" then { r with expectsDefault := true }
  else if r.expectsDefault && part.named then r.setDefault (Text.trim (part.text source))
  else r

end ParameterReading

namespace Node

/-- **The parameters of a declaration** with their default values. -/
def parameters (source : List Char) (n : Node) : List Parameter :=
  (n.children.foldl (ParameterReading.step source) {}).parameters.reverse

/-- Reads one part of a declaration for its effects. -/
def effectStep (source : List Char) (e : Effects) (part : Node) : Effects :=
  if part.kind = "async" then { e with isAsync := true }
  else if part.kind = "throws" || part.kind = "rethrows" then
    { e with throwing := some (Text.collapse (part.text source)) }
  else if !part.named && part.text source == "async" then { e with isAsync := true }
  else e

/-- **The effects of a declaration.** -/
def effects (source : List Char) (n : Node) : Effects :=
  n.children.foldl (effectStep source) {}

end Node

/-! ## Methods and initializers -/

/-- **Reads a method declaration**, which must have a name. -/
def Method.ofNode? (source : List Char) (n : Node) : Option Method :=
  (n.field? "name").map fun name =>
    { name := Text.trim (name.text source),
      genericParams := n.childText? source "type_parameters",
      parameters := n.parameters source,
      effects := n.effects source,
      returnType := (n.field? "return_type").map fun t => Text.collapse (t.text source),
      whereClause := n.childText? source "type_constraints",
      isStatic := n.isTypeMember source }

/-- Whether a character in front of `init` makes it part of something else. -/
def gluesToInit (c : Char) : Bool := isAlphanumeric c || c == '_' || c == '@' || c == '.'

/-- **The mark of an initializer**, looked for in the text of the whole
declaration: the first `init` that stands alone and is followed by a mark or
by an opening bracket decides. `previous` is the character before the text. -/
def Failability.ofChars (previous : Option Char) : List Char → Failability
  | [] => .infallible
  | c :: cs =>
    match Chars.dropPrefix? ['i', 'n', 'i', 't'] (c :: cs) with
    | some rest =>
      if previous.any gluesToInit then ofChars (some c) cs
      else
        match (Chars.trimStart rest).head? with
        | some '?' => .optional
        | some '!' => .implicitlyUnwrapped
        | some '(' => .infallible
        | some '<' => .infallible
        | _ => ofChars (some c) cs
    | none => ofChars (some c) cs

/-- The mark of an initializer, from its text. -/
def Failability.ofText (text : String) : Failability := ofChars none text.toList

/-- **Reads an initializer declaration.** -/
def Initializer.ofNode (source : List Char) (n : Node) : Initializer :=
  { isRequired := (n.keywords source).contains "required",
    failability := .ofText (n.text source),
    genericParams := n.childText? source "type_parameters",
    parameters := n.parameters source,
    effects := n.effects source,
    whereClause := n.childText? source "type_constraints" }

/-- **Reads a declaration** by the kind of its node. -/
def Declaration.ofNode (source : List Char) (n : Node) : Declaration :=
  match n.kind with
  | "property_declaration" => .property (Property.ofNode source n)
  | "function_declaration" =>
    match Method.ofNode? source n with
    | some m => .method m
    | none => .unrecognized n.kind
  | "init_declaration" => .initializer (Initializer.ofNode source n)
  | _ => .unrecognized n.kind

/-! ## Enclosing types -/

/-- The keyword of a type declaration: the part in that role, or else the
first part whose text is such a keyword. -/
def Node.typeKeyword? (source : List Char) (n : Node) : Option TypeKeyword :=
  match n.field? "declaration_kind" with
  | some k => TypeKeyword.ofText? (Text.trim (k.text source))
  | none => n.children.findSome? fun c => TypeKeyword.ofText? (c.text source)

/-- Whether a node declares a type. -/
def Node.declaresType (n : Node) : Bool :=
  n.kind == "class_declaration" || n.kind == "protocol_declaration"

/-- The type that a node declares. -/
def EnclosingType.ofNode? (source : List Char) (n : Node) : Option EnclosingType :=
  if n.kind = "protocol_declaration" then
    some { keyword := .protocolType, name := (n.field? "name").map fun m => m.text source }
  else
    (n.typeKeyword? source).map fun keyword =>
      { keyword, name := (n.field? "name").map fun m => Text.trim (m.text source),
        isFinal := (n.keywords source).contains "final" }

/-- **The type around a node**: the nearest ancestor that declares one. -/
def Node.Occurrence.enclosing? (source : List Char) (o : Node.Occurrence) :
    Option EnclosingType :=
  (o.ancestors.find? Node.declaresType).bind (EnclosingType.ofNode? source)

end TestAccess
