import TestAccess.Declaration
import TestAccess.Json.Record

/-!
# Declarations in JSON

Each type has an encoder, which writes all fields, and a reader, which allows
the fields with a default to be left out. A declaration is an object that
names its shape next to its fields.
-/

namespace TestAccess

namespace Label

/-- A label is written by its name, the wildcard as a bare word. -/
def toJson : Label → Json
  | .named name => .object [("named", .text name)]
  | .wildcard => .text "wildcard"

/-- A label is read back from either of its alternatives. -/
def ofJson? (j : Json) : Option Label :=
  match j.variant? with
  | some ("named", some contents) => contents.text?.map .named
  | some ("wildcard", contents) => if Json.isBare contents then some .wildcard else none
  | _ => none

end Label

namespace Parameter

/-- A parameter is written with all of its fields. -/
def toJson (p : Parameter) : Json :=
  .object [("label", p.label.toJson), ("ty", .text p.type),
    ("default_value", .option .text p.defaultValue)]

/-- A parameter is read; it need not have a default value. -/
def ofJson? (j : Json) : Option Parameter := do
  let r ← j.record? ["label", "ty", "default_value"]
  let label ← r.required "label" Label.ofJson?
  let type ← r.required "ty" Json.text?
  let defaultValue ← r.optional "default_value" Json.text?
  return { label, type, defaultValue }

end Parameter

namespace Effects

/-- Effects are written as the two clauses they come from. -/
def toJson (e : Effects) : Json :=
  .object [("is_async", .bool e.isAsync), ("throws", .option .text e.throwing)]

/-- Effects are read; the throwing clause may be absent. -/
def ofJson? (j : Json) : Option Effects := do
  let r ← j.record? ["is_async", "throws"]
  let isAsync ← r.required "is_async" Json.bool?
  let throwing ← r.optional "throws" Json.text?
  return { isAsync, throwing }

end Effects

namespace Mutability

/-- The word for a mutability. -/
def name : Mutability → String
  | .mutable => "mutable"
  | .immutable => "immutable"

/-- A mutability is written as its word. -/
def toJson (m : Mutability) : Json := .text m.name

/-- A mutability is read from its word. -/
def ofJson? : Json → Option Mutability :=
  Json.choice? [("mutable", .mutable), ("immutable", .immutable)]

end Mutability

namespace Pattern

/-- A pattern is written with the alternative that it is. -/
def toJson : Pattern → Json
  | .identifier name => .object [("identifier", .text name)]
  | .destructured text => .object [("destructured", .text text)]

/-- A pattern is read; both of its alternatives have contents. -/
def ofJson? (j : Json) : Option Pattern :=
  match j.variant? with
  | some ("identifier", some contents) => contents.text?.map .identifier
  | some ("destructured", some contents) => contents.text?.map .destructured
  | _ => none

end Pattern

namespace Storage

/-- The word for a kind of storage. -/
def name : Storage → String
  | .stored => "stored"
  | .observed => "observed"
  | .computed false => "computed_get_only"
  | .computed true => "computed_get_set"

/-- A kind of storage is written as its word. -/
def toJson (s : Storage) : Json := .text s.name

/-- A kind of storage is read from its word. -/
def ofJson? : Json → Option Storage :=
  Json.choice? [("stored", .stored), ("observed", .observed),
    ("computed_get_only", .computed false), ("computed_get_set", .computed true)]

end Storage

namespace Binding

/-- A binding is written with all of its fields. -/
def toJson (b : Binding) : Json :=
  .object [("pattern", b.pattern.toJson), ("declared_type", .option .text b.declaredType),
    ("accessors", b.storage.toJson)]

/-- A binding is read; it is stored where nothing else is said. -/
def ofJson? (j : Json) : Option Binding := do
  let r ← j.record? ["pattern", "declared_type", "accessors"]
  let pattern ← r.required "pattern" Pattern.ofJson?
  let declaredType ← r.optional "declared_type" Json.text?
  let storage ← r.defaulted "accessors" Storage.ofJson? .stored
  return { pattern, declaredType, storage }

end Binding

namespace Failability

/-- The word for a failability. -/
def name : Failability → String
  | .infallible => "none"
  | .optional => "optional"
  | .implicitlyUnwrapped => "implicitly_unwrapped"

/-- A failability is written as its word. -/
def toJson (f : Failability) : Json := .text f.name

/-- A failability is read from its word. -/
def ofJson? : Json → Option Failability :=
  Json.choice? [("none", .infallible), ("optional", .optional),
    ("implicitly_unwrapped", .implicitlyUnwrapped)]

end Failability

/-! ## The three shapes

The fields of a shape stand in the object of the declaration itself, next to
its name. -/

namespace Property

/-- The fields of a property. -/
def members (p : Property) : List (String × Json) :=
  [("binding_kind", p.mutability.toJson), ("bindings", .list Binding.toJson p.bindings),
    ("is_static", .bool p.isStatic)]

/-- A property is read; it belongs to the instance where nothing else
is said. -/
def ofJson? (j : Json) : Option Property := do
  let r ← j.record? ["binding_kind", "bindings", "is_static"]
  let mutability ← r.required "binding_kind" Mutability.ofJson?
  let bindings ← r.required "bindings" (Json.list? Binding.ofJson?)
  let isStatic ← r.defaulted "is_static" Json.bool? false
  return { mutability, bindings, isStatic }

end Property

namespace Method

/-- The fields of a method. -/
def members (m : Method) : List (String × Json) :=
  [("name", .text m.name), ("generic_params", .option .text m.genericParams),
    ("parameters", .list Parameter.toJson m.parameters), ("effects", m.effects.toJson),
    ("return_type", .option .text m.returnType), ("where_clause", .option .text m.whereClause),
    ("is_static", .bool m.isStatic)]

/-- A method is read; without effects it has none, and it belongs to
the instance where nothing else is said. -/
def ofJson? (j : Json) : Option Method := do
  let r ← j.record? ["name", "generic_params", "parameters", "effects", "return_type",
    "where_clause", "is_static"]
  let name ← r.required "name" Json.text?
  let genericParams ← r.optional "generic_params" Json.text?
  let parameters ← r.required "parameters" (Json.list? Parameter.ofJson?)
  let effects ← r.defaulted "effects" Effects.ofJson? {}
  let returnType ← r.optional "return_type" Json.text?
  let whereClause ← r.optional "where_clause" Json.text?
  let isStatic ← r.defaulted "is_static" Json.bool? false
  return { name, genericParams, parameters, effects, returnType, whereClause, isStatic }

end Method

namespace Initializer

/-- The fields of an initializer. -/
def members (i : Initializer) : List (String × Json) :=
  [("is_required", .bool i.isRequired), ("failability", i.failability.toJson),
    ("generic_params", .option .text i.genericParams),
    ("parameters", .list Parameter.toJson i.parameters), ("effects", i.effects.toJson),
    ("where_clause", .option .text i.whereClause)]

/-- An initializer is read; where nothing else is said it cannot fail
and has no effects. -/
def ofJson? (j : Json) : Option Initializer := do
  let r ← j.record? ["is_required", "failability", "generic_params", "parameters", "effects",
    "where_clause"]
  let isRequired ← r.required "is_required" Json.bool?
  let failability ← r.defaulted "failability" Failability.ofJson? .infallible
  let genericParams ← r.optional "generic_params" Json.text?
  let parameters ← r.required "parameters" (Json.list? Parameter.ofJson?)
  let effects ← r.defaulted "effects" Effects.ofJson? {}
  let whereClause ← r.optional "where_clause" Json.text?
  return { isRequired, failability, genericParams, parameters, effects, whereClause }

end Initializer

namespace Declaration

/-- The fields of the shape of a declaration. -/
def members : Declaration → List (String × Json)
  | .property p => p.members
  | .method m => m.members
  | .initializer i => i.members
  | .unrecognized kind => [("kind", .text kind)]

/-- **A declaration is written** as an object with its shape in front. -/
def toJson (d : Declaration) : Json := .object (("shape", .text d.shape) :: d.members)

/-- **A declaration is read** by its shape. -/
def ofJson? (j : Json) : Option Declaration := do
  let (shape, fields) ← j.shaped? "shape"
  match shape with
  | "property" => (Property.ofJson? fields).map .property
  | "method" => (Method.ofJson? fields).map .method
  | "initializer" => (Initializer.ofJson? fields).map .initializer
  | "unrecognized" => do
    let r ← fields.record? ["kind"]
    (r.required "kind" Json.text?).map .unrecognized
  | _ => none

end Declaration

end TestAccess
