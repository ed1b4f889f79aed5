import TestAccess.Naming
import TestAccess.Text.Split

/-!
# Annotated declarations

What is known of a declaration is its outline: names, labels and keywords are
understood, while types, default values and clauses are kept as the text that
stands in the source. Nothing in the program looks into a type beyond the two
questions a parameter has to answer – is it passed by reference, and can it
be passed on at all.

A declaration is a property, a method or an initializer; everything else an
annotation may be attached to is `unrecognized` and carries only the name of
its kind.
-/

namespace TestAccess

/-! ## Parameters -/

/-- **The label of a parameter** at the call site. -/
inductive Label where
  | named (name : String)
  /-- The underscore: the argument is passed by position. -/
  | wildcard
deriving DecidableEq, Repr

namespace Label

/-- Reads a label as it is written. -/
def ofText (text : String) : Label :=
  let name := Text.trim text
  if name = "_" then .wildcard else .named name

/-- Writes a label. -/
def text : Label → String
  | .named name => name
  | .wildcard => "_"

/-- The name to write in front of an argument, if there is one. -/
def name? : Label → Option String
  | .named name => some name
  | .wildcard => none

end Label

/-- **A parameter**: its label, its type as written, and its default value. -/
structure Parameter where
  label : Label
  type : String
  defaultValue : Option String := none
deriving DecidableEq, Repr

namespace Parameter

/-- The argument is passed by reference: the type opens with `inout`. -/
def isInout (p : Parameter) : Bool := (Text.words p.type).head? == some "inout"

/-- The parameter takes any number of arguments. Such a list arrives as an
array and cannot be passed on. -/
def isVariadic (p : Parameter) : Bool := Text.endsIn (Text.trimEnd p.type) ['.', '.', '.']

end Parameter

/-- The effects of a call: whether it suspends, and the clause that says it
throws. -/
structure Effects where
  isAsync : Bool := false
  throwing : Option String := none
deriving DecidableEq, Repr

/-! ## Properties -/

/-- Whether a property is declared with `var` or with `let`. -/
inductive Mutability where
  | mutable
  | immutable
deriving DecidableEq, Repr

/-- The keyword of a declaration of this mutability. -/
def Mutability.keyword : Mutability → String
  | .mutable => "var"
  | .immutable => "let"

/-- What stands on the left of a binding: one name, or a pattern that binds
several and is kept as written. -/
inductive Pattern where
  | identifier (name : String)
  | destructured (text : String)
deriving DecidableEq, Repr

/-- The pattern as written. -/
def Pattern.text : Pattern → String
  | .identifier name => name
  | .destructured text => text

/-- How a binding keeps its value. -/
inductive Storage where
  | stored
  /-- Stored, with code that runs around a change. -/
  | observed
  | computed (settable : Bool)
deriving DecidableEq, Repr

/-- One binding of a property declaration. -/
structure Binding where
  pattern : Pattern
  declaredType : Option String := none
  storage : Storage := .stored
deriving DecidableEq, Repr

/-- **A binding can be assigned** when it is a variable and is not computed
by a getter alone. -/
def Binding.isSettable (b : Binding) : Mutability → Bool
  | .immutable => false
  | .mutable => b.storage ≠ .computed false

/-- A property declaration, which may introduce several bindings. -/
structure Property where
  mutability : Mutability
  bindings : List Binding
  isStatic : Bool := false
deriving DecidableEq, Repr

/-! ## Methods and initializers -/

/-- A method declaration. The generic clause is kept with its angle brackets
and the constraints with their `where`. -/
structure Method where
  name : String
  genericParams : Option String := none
  parameters : List Parameter
  effects : Effects := {}
  returnType : Option String := none
  whereClause : Option String := none
  isStatic : Bool := false
deriving DecidableEq, Repr

/-- Whether an initializer can fail, and how its result is wrapped then. -/
inductive Failability where
  | infallible
  | optional
  | implicitlyUnwrapped
deriving DecidableEq, Repr

/-- The mark behind `init`. -/
def Failability.suffix : Failability → String
  | .infallible => ""
  | .optional => "?"
  | .implicitlyUnwrapped => "!"

/-- An initializer declaration. -/
structure Initializer where
  isRequired : Bool
  failability : Failability := .infallible
  genericParams : Option String := none
  parameters : List Parameter
  effects : Effects := {}
  whereClause : Option String := none
deriving DecidableEq, Repr

/-! ## Declarations -/

/-- **A declaration that carries the annotation.** -/
inductive Declaration where
  | property (property : Property)
  | method (method : Method)
  | initializer (initializer : Initializer)
  | unrecognized (kind : String)
deriving DecidableEq, Repr

namespace Declaration

/-- A short description for listings and messages. -/
def describe : Declaration → String
  | .property p =>
    p.mutability.keyword ++ " " ++ Text.join ", " (p.bindings.map fun b => b.pattern.text)
  | .method m => "func " ++ m.name
  | .initializer i => "init" ++ i.failability.suffix
  | .unrecognized kind => kind

/-- The name of the shape. -/
def shape : Declaration → String
  | .property _ => "property"
  | .method _ => "method"
  | .initializer _ => "initializer"
  | .unrecognized _ => "unrecognized"

end Declaration

end TestAccess
