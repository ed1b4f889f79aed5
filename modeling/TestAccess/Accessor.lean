import TestAccess.Declaration

/-!
# Accessors

An accessor is a public declaration that a test may use in place of a hidden
one. Its body is never free text: a property reads and assigns one member
expression, and a function makes one call, in which every argument is one of
the function's own parameters. Text is made of it only by a rendering.
-/

namespace TestAccess

/-- A computed property that stands for a member. -/
structure AccessorProperty where
  name : String
  type : String
  isStatic : Bool
  /-- The member expression that is read, and assigned if settable. -/
  target : String
  settable : Bool
deriving DecidableEq, Repr

/-- A parameter of an accessor function. -/
structure AccessorParameter where
  label : Label
  name : String
  type : String
  defaultValue : Option String := none
deriving DecidableEq, Repr

/-- An argument of the call in a body. -/
structure Argument where
  label : Option String := none
  value : String
  isInout : Bool := false
deriving DecidableEq, Repr

/-- The call that an accessor function makes. -/
structure ForwardingCall where
  callee : String
  arguments : List Argument
  isTry : Bool := false
  isAwait : Bool := false
deriving DecidableEq, Repr

/-- A function whose body is one call. -/
structure AccessorFunction where
  name : String
  isStatic : Bool
  genericParams : Option String := none
  parameters : List AccessorParameter
  effects : Effects := {}
  returnType : Option String := none
  whereClause : Option String := none
  body : ForwardingCall
deriving DecidableEq, Repr

/-- What an accessor is. -/
inductive AccessorKind where
  | property (property : AccessorProperty)
  | function (function : AccessorFunction)
deriving DecidableEq, Repr

/-- **An accessor** with the attributes it takes over. -/
structure Accessor where
  attributes : List String
  kind : AccessorKind
deriving DecidableEq, Repr

/-- The name of an accessor. -/
def Accessor.name (a : Accessor) : String :=
  match a.kind with
  | .property p => p.name
  | .function f => f.name

end TestAccess
