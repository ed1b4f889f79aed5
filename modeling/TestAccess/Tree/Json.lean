import TestAccess.Json.Record
import TestAccess.Tree.Node

/-!
# Trees in JSON

A tree over a source can be given as data. A node's kind and range must be
there, and the range must lie in the source between characters; whatever is
odd about the other members counts as their absence.
-/

namespace TestAccess.Node

/-- The texts among the items of a list. -/
def textsAmong : Option Json → List String
  | some (.array items) => items.filterMap Json.text?
  | _ => []

/-- Whether a range lies in a source, between characters. -/
def isProperRange (source : List Char) (start stop : Nat) : Bool :=
  start ≤ stop && Chars.isBoundary start source && Chars.isBoundary stop source

mutual

/-- **Reads a tree over a source.** -/
def ofJson? (source : List Char) : Json → Option Node
  | .object members => do
    let r : Json.Record := ⟨members, true⟩
    let kind ← r.required "k" Json.text?
    let start ← r.required "s" Json.size?
    let stop ← r.required "e" Json.size?
    guard (isProperRange source start stop)
    let children ← childrenOfJson? source members
    let named := (r.get? "n").bind Json.bool? |>.getD true
    return .mk kind ⟨start, stop⟩ named (textsAmong (r.get? "f")) children
  | _ => none

/-- The parts of a node, from the first member that holds them. -/
def childrenOfJson? (source : List Char) : List (String × Json) → Option (List Node)
  | [] => some []
  | (name, value) :: rest =>
    if name = "c" then
      match value with
      | .array items => allOfJson? source items
      | _ => some []
    else childrenOfJson? source rest

/-- Reads several trees, all of which must be readable. -/
def allOfJson? (source : List Char) : List Json → Option (List Node)
  | [] => some []
  | j :: js => do
    let n ← ofJson? source j
    let ns ← allOfJson? source js
    return n :: ns

end

end TestAccess.Node
