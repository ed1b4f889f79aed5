import TestAccess.Text.Split
import TestAccess.Tree.Node

/-!
# Attributes and modifiers of a declaration

The attributes of a declaration are found in two places: directly among its
parts, and among the parts of its list of modifiers. An attribute is known by
its name alone – the last component of the type it names, without arguments –
so that `@Testing.VisibleForTesting(reason: "…")` is a `VisibleForTesting`.
-/

namespace TestAccess

namespace Chars

/-- The name of an attribute: behind the signs `@`, before the arguments, and
behind the last dot, with blanks trimmed at each step. -/
def attributeName (cs : List Char) : List Char :=
  let path := (trim cs).dropWhile (· == '@')
  let head := trim (before (· == '(') path)
  trim (afterLast (· == '.') head)

end Chars

/-- **The name of an attribute**, from its text. -/
def attributeName (text : String) : String := String.ofList (Chars.attributeName text.toList)

example : attributeName "@Testing.VisibleForTesting(a.b)" = "VisibleForTesting" := by
  decide +kernel
example : attributeName " @available(iOS 15, *)" = "available" := by decide +kernel

namespace Node

/-- The attributes that a part of a declaration contributes. -/
def attributesOfPart (part : Node) : List Node :=
  if part.kind = "attribute" then [part]
  else if part.kind = "modifiers" then part.children.filter fun m => m.kind == "attribute"
  else []

/-- **The attributes of a declaration**, in order. -/
def attributes (n : Node) : List Node := n.children.flatMap attributesOfPart

/-- Whether an attribute has the given name. -/
def isAttributeNamed (source : List Char) (name : String) (a : Node) : Bool :=
  attributeName (a.text source) == name

/-- **The annotation of a declaration**: its first attribute of that name. -/
def marker? (source : List Char) (name : String) (n : Node) : Option Node :=
  n.attributes.find? (isAttributeNamed source name)

/-- The texts of the attributes that do not have the name of the
annotation. -/
def otherAttributes (source : List Char) (name : String) (n : Node) : List String :=
  (n.attributes.map fun a => Text.trim (a.text source)).filter fun t => attributeName t != name

/-- The modifier words that a part of a declaration contributes. The keyword
`class` in front of a member may stand outside the list of modifiers. -/
def keywordsOfPart (source : List Char) (part : Node) : List String :=
  if part.kind = "modifiers" then
    (part.children.filter fun m => m.kind != "attribute").flatMap fun m =>
      Text.words (m.text source)
  else if part.kind = "class" && !part.named then ["class"]
  else []

/-- **The modifier words of a declaration.** -/
def keywords (source : List Char) (n : Node) : List String :=
  n.children.flatMap (keywordsOfPart source)

/-- Whether a member belongs to the type itself. -/
def isTypeMember (source : List Char) (n : Node) : Bool :=
  (n.keywords source).any fun k => k == "static" || k == "class"

end Node

end TestAccess
