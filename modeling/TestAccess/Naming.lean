import TestAccess.Text.Blank
import TestAccess.Text.Letter

/-!
# Names of members and of their accessors

A Swift identifier may be written in backticks, which are not part of the name
it denotes. The accessor of a property is its name behind `__test_`, that of a
method its name behind `_test_`, and the parameters of an accessor are
numbered, so that no two of them can clash whatever the member's own
parameters are called.
-/

namespace TestAccess

namespace Chars

/-- Removes the backticks around a name; a backtick on one side only stays. -/
def unescape (cs : List Char) : List Char :=
  match cs with
  | '`' :: rest =>
    match rest.reverse with
    | '`' :: inner => inner.reverse
    | _ => cs
  | _ => cs

/-- A letter or underscore, then letters, numbers and underscores. -/
def isIdentifier (cs : List Char) : Bool :=
  match unescape (trim cs) with
  | [] => false
  | c :: rest => (c = '_' || isLetter c) && rest.all fun d => d = '_' || isAlphanumeric d

end Chars

namespace Naming

/-- **The name without its backticks.** -/
def unescape (name : String) : String := String.ofList (Chars.unescape name.toList)

/-- **Whether a text is an identifier**, blanks around it and a pair of
backticks aside. -/
def isIdentifier (text : String) : Bool := Chars.isIdentifier text.toList

/-- The accessor of a property. -/
def propertyAccessor (name : String) : String := "__test_" ++ unescape name

/-- The accessor of a method. -/
def methodAccessor (name : String) : String := "_test_" ++ unescape name

/-- The accessor of an initializer: a factory. -/
def initFactory : String := "_test_init"

/-- What the factory calls. -/
def initCallee : String := "Self.init"

/-- The name of the parameter at a position. -/
def argument (index : Nat) : String := "arg" ++ toString index

@[simp] theorem toList_unescape (name : String) :
    (unescape name).toList = Chars.unescape name.toList := by simp [unescape]

end Naming

example : Naming.unescape "`default`" = "default" := by decide +kernel
example : Naming.unescape "`" = "`" := by decide +kernel
example : Naming.isIdentifier " `x1` " = true := by decide +kernel
example : Naming.isIdentifier "(a, b)" = false := by decide +kernel

end TestAccess
