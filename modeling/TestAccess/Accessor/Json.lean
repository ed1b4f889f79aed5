import TestAccess.Accessor
import TestAccess.Declaration.Json

/-!
# Accessors in JSON

An accessor's kind is an object that names it beside its fields, as a
declaration names its shape.
-/

namespace TestAccess

namespace AccessorProperty

/-- The fields of a property accessor. -/
def members (p : AccessorProperty) : List (String × Json) :=
  [("name", .text p.name), ("ty", .text p.type), ("is_static", .bool p.isStatic),
    ("target", .text p.target), ("settable", .bool p.settable)]

/-- A property accessor is read; all of its fields must be there. -/
def ofJson? (j : Json) : Option AccessorProperty := do
  let r ← j.record? ["name", "ty", "is_static", "target", "settable"]
  let name ← r.required "name" Json.text?
  let type ← r.required "ty" Json.text?
  let isStatic ← r.required "is_static" Json.bool?
  let target ← r.required "target" Json.text?
  let settable ← r.required "settable" Json.bool?
  return { name, type, isStatic, target, settable }

end AccessorProperty

namespace AccessorParameter

/-- A parameter of an accessor is written with its local name. -/
def toJson (p : AccessorParameter) : Json :=
  .object [("label", p.label.toJson), ("name", .text p.name), ("ty", .text p.type),
    ("default_value", .option .text p.defaultValue)]

/-- A parameter of an accessor is read; it need not have a default
value. -/
def ofJson? (j : Json) : Option AccessorParameter := do
  let r ← j.record? ["label", "name", "ty", "default_value"]
  let label ← r.required "label" Label.ofJson?
  let name ← r.required "name" Json.text?
  let type ← r.required "ty" Json.text?
  let defaultValue ← r.optional "default_value" Json.text?
  return { label, name, type, defaultValue }

end AccessorParameter

namespace Argument

/-- An argument is written with all of its fields. -/
def toJson (a : Argument) : Json :=
  .object [("label", .option .text a.label), ("value", .text a.value),
    ("is_inout", .bool a.isInout)]

/-- An argument is read; it need not have a label. -/
def ofJson? (j : Json) : Option Argument := do
  let r ← j.record? ["label", "value", "is_inout"]
  let label ← r.optional "label" Json.text?
  let value ← r.required "value" Json.text?
  let isInout ← r.required "is_inout" Json.bool?
  return { label, value, isInout }

end Argument

namespace ForwardingCall

/-- A forwarding call is written with all of its fields. -/
def toJson (c : ForwardingCall) : Json :=
  .object [("callee", .text c.callee), ("arguments", .list Argument.toJson c.arguments),
    ("is_try", .bool c.isTry), ("is_await", .bool c.isAwait)]

/-- A forwarding call is read; all of its fields must be there. -/
def ofJson? (j : Json) : Option ForwardingCall := do
  let r ← j.record? ["callee", "arguments", "is_try", "is_await"]
  let callee ← r.required "callee" Json.text?
  let arguments ← r.required "arguments" (Json.list? Argument.ofJson?)
  let isTry ← r.required "is_try" Json.bool?
  let isAwait ← r.required "is_await" Json.bool?
  return { callee, arguments, isTry, isAwait }

end ForwardingCall

namespace AccessorFunction

/-- The fields of a function accessor. -/
def members (f : AccessorFunction) : List (String × Json) :=
  [("name", .text f.name), ("is_static", .bool f.isStatic),
    ("generic_params", .option .text f.genericParams),
    ("parameters", .list AccessorParameter.toJson f.parameters), ("effects", f.effects.toJson),
    ("return_type", .option .text f.returnType), ("where_clause", .option .text f.whereClause),
    ("body", f.body.toJson)]

/-- A function accessor is read; unlike those of a method, its effects
must be there. -/
def ofJson? (j : Json) : Option AccessorFunction := do
  let r ← j.record? ["name", "is_static", "generic_params", "parameters", "effects",
    "return_type", "where_clause", "body"]
  let name ← r.required "name" Json.text?
  let isStatic ← r.required "is_static" Json.bool?
  let genericParams ← r.optional "generic_params" Json.text?
  let parameters ← r.required "parameters" (Json.list? AccessorParameter.ofJson?)
  let effects ← r.required "effects" Effects.ofJson?
  let returnType ← r.optional "return_type" Json.text?
  let whereClause ← r.optional "where_clause" Json.text?
  let body ← r.required "body" ForwardingCall.ofJson?
  return { name, isStatic, genericParams, parameters, effects, returnType, whereClause, body }

end AccessorFunction

namespace AccessorKind

/-- The kind of an accessor is written in front of its fields. -/
def toJson : AccessorKind → Json
  | .property p => .object (("kind", .text "property") :: p.members)
  | .function f => .object (("kind", .text "function") :: f.members)

/-- The kind of an accessor decides which fields are read. -/
def ofJson? (j : Json) : Option AccessorKind := do
  let (kind, fields) ← j.shaped? "kind"
  match kind with
  | "property" => (AccessorProperty.ofJson? fields).map .property
  | "function" => (AccessorFunction.ofJson? fields).map .function
  | _ => none

end AccessorKind

namespace Accessor

/-- **An accessor is written** with its attributes and its kind. -/
def toJson (a : Accessor) : Json :=
  .object [("attributes", .texts a.attributes), ("kind", a.kind.toJson)]

/-- **An accessor is read** with all of its fields, those that may be `null`
aside. -/
def ofJson? (j : Json) : Option Accessor := do
  let r ← j.record? ["attributes", "kind"]
  let attributes ← r.required "attributes" Json.texts?
  let kind ← r.required "kind" AccessorKind.ofJson?
  return { attributes, kind }

end Accessor

end TestAccess
