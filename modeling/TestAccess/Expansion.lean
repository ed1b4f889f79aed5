import TestAccess.Accessor
import TestAccess.Request

/-!
# From a request to its accessors

A property gives one accessor for each of its bindings that has a name and a
type; a method or an initializer gives one function that passes its arguments
on. Declarations that cannot be forwarded – operators, variadic parameters,
shapes without an accessor – give nothing, silently. Only the initializer
policy speaks up: under the strict policy the initializer of a class that can
have subclasses must be `required`, since a subclass need not inherit it
otherwise, and then the request gives a diagnostic *instead of* accessors.

Signature and call of a function are both built by position, so the argument
at a position always names the parameter at the same position.
-/

namespace TestAccess

/-- What to do with initializers that a subclass might not inherit. -/
inductive InitPolicy where
  | permissive
  | strict
deriving DecidableEq, Repr

/-- The options of an expansion. The annotation is named in messages. -/
structure ExpansionOptions where
  marker : String := "VisibleForTesting"
  initPolicy : InitPolicy := .permissive
deriving DecidableEq, Repr

/-- **What a request gives**: accessors, or diagnostics. -/
structure Expansion where
  accessors : List Accessor
  diagnostics : List Diagnostic
deriving DecidableEq, Repr

namespace Expansion

/-- Whether something was reported. -/
def hasErrors (e : Expansion) : Bool := !e.diagnostics.isEmpty

end Expansion

/-! ## Passing arguments on -/

namespace Forwarding

/-- The parameters of the accessor: numbered, with label, type and default
as declared. -/
def parameters (source : List Parameter) : List AccessorParameter :=
  source.mapIdx fun index p =>
    { label := p.label, name := Naming.argument index, type := p.type,
      defaultValue := p.defaultValue }

/-- The arguments of the call: each numbered parameter under the label it was
declared with. -/
def arguments (source : List Parameter) : List Argument :=
  source.mapIdx fun index p =>
    { label := p.label.name?, value := Naming.argument index, isInout := p.isInout }

/-- Whether every argument can be passed on. -/
def isForwardable (source : List Parameter) : Bool := source.all fun p => !p.isVariadic

/-- The call of `callee` with the given parameters, marked for its effects. -/
def call (callee : String) (source : List Parameter) (effects : Effects) : ForwardingCall :=
  { callee, arguments := arguments source, isTry := effects.throwing.isSome,
    isAwait := effects.isAsync }

@[simp] theorem length_arguments (source : List Parameter) :
    (arguments source).length = source.length := by simp [arguments]

end Forwarding

/-! ## The accessors of a declaration -/

/-- The accessor of a binding, if it has a name and a type. -/
def Binding.accessor? (b : Binding) (p : Property) : Option AccessorProperty :=
  match b.pattern, b.declaredType with
  | .identifier name, some type =>
    if Naming.isIdentifier name then
      some
        { name := Naming.propertyAccessor name, type, isStatic := p.isStatic,
          target := "self." ++ name, settable := b.isSettable p.mutability }
    else none
  | _, _ => none

/-- The accessors of a property, in order of its bindings. -/
def Property.accessors (p : Property) : List AccessorProperty :=
  p.bindings.filterMap fun b => b.accessor? p

/-- The accessor of a method, if its name is an identifier and its arguments
can be passed on. -/
def Method.accessor? (m : Method) : Option AccessorFunction :=
  if Naming.isIdentifier m.name && Forwarding.isForwardable m.parameters then
    some
      { name := Naming.methodAccessor m.name, isStatic := m.isStatic,
        genericParams := m.genericParams, parameters := Forwarding.parameters m.parameters,
        effects := m.effects, returnType := m.returnType, whereClause := m.whereClause,
        body := Forwarding.call m.name m.parameters m.effects }
  else none

/-- The factory of an initializer, if its arguments can be passed on. -/
def Initializer.accessor? (i : Initializer) : Option AccessorFunction :=
  if Forwarding.isForwardable i.parameters then
    some
      { name := Naming.initFactory, isStatic := true, genericParams := i.genericParams,
        parameters := Forwarding.parameters i.parameters, effects := i.effects,
        returnType := some ("Self" ++ i.failability.suffix), whereClause := i.whereClause,
        body := Forwarding.call Naming.initCallee i.parameters i.effects }
  else none

/-- The accessors of a declaration, when no policy stands against them. -/
def Declaration.accessorKinds : Declaration → List AccessorKind
  | .property p => p.accessors.map .property
  | .method m => m.accessor?.toList.map .function
  | .initializer i => i.accessor?.toList.map .function
  | .unrecognized _ => []

/-! ## Policy and expansion -/

namespace Request

/-- **The strict policy** rejects an initializer that is not required when the
type around it is known to be open to subclasses. -/
def rejection? (q : Request) (o : ExpansionOptions) : Option Diagnostic :=
  match o.initPolicy, q.declaration with
  | .strict, .initializer i =>
    if !i.isRequired && q.enclosing.bind EnclosingType.isSubclassable == some true then
      some
        { message := "@" ++ o.marker ++ " can only be applied to a required init",
          anchor := q.anchor }
    else none
  | _, _ => none

/-- The accessors of a request that was not rejected: each takes over all of
the attributes. -/
def accessors (q : Request) : List Accessor :=
  q.declaration.accessorKinds.map fun kind => { attributes := q.attributes, kind }

/-- **Expands a request** and reports into a list of diagnostics: the
accessors, and the list with what was added to it. -/
def expandInto (o : ExpansionOptions) (sink : List Diagnostic) (q : Request) :
    List Accessor × List Diagnostic :=
  match q.rejection? o with
  | some d => ([], sink ++ [d])
  | none => (q.accessors, sink)

/-- **Expands a request** on its own. -/
def expand (o : ExpansionOptions) (q : Request) : Expansion :=
  let (accessors, diagnostics) := q.expandInto o []
  { accessors, diagnostics }

/-- Expands requests one after another into one list of diagnostics: the
accessors of each, and the list at the end. -/
def expandAll (o : ExpansionOptions) (sink : List Diagnostic) :
    List Request → List (List Accessor) × List Diagnostic
  | [] => ([], sink)
  | q :: qs =>
    let (accessors, sink) := q.expandInto o sink
    let (rest, sink) := expandAll o sink qs
    (accessors :: rest, sink)

end Request

end TestAccess
