import TestAccess.Tree.Node

/-!
# Lists of groups among the parts of a node

What a declaration lists – its parameters, its bindings – has no node of its
own. The parts of one item are neighbours among the parts of the declaration,
and a comma stands between the last part of an item and the first part of the
next (`Node.CommaList`).

A reading of the parts that takes no notice of commas is a reading of the
items, one after another. This is all that the readings have in common, and it
holds of those that collect (`CommaList.flatMap_eq`) and of those that carry
along what they have read (`CommaList.foldl_eq`).
-/

namespace TestAccess.Node

/-- **The parts of items**, with commas in between. -/
inductive CommaList {α : Type} (partsOf : α → List Node) : List α → List Node → Prop
  | none : CommaList partsOf [] []
  | one (a : α) : CommaList partsOf [a] (partsOf a)
  | more (a : α) {comma : Node} (hcomma : comma.kind = ",") {next : α} {items : List α}
      {parts : List Node} (h : CommaList partsOf (next :: items) parts) :
      CommaList partsOf (a :: next :: items) (partsOf a ++ comma :: parts)

namespace CommaList

variable {α β : Type} {partsOf : α → List Node} {items : List α} {parts : List Node}

/-- **What is collected** from the parts is what is collected from the parts of
each item, if a comma contributes nothing. -/
theorem flatMap_eq (h : CommaList partsOf items parts) {f : Node → List β}
    (hf : ∀ comma : Node, comma.kind = "," → f comma = []) :
    parts.flatMap f = items.flatMap fun a => (partsOf a).flatMap f := by
  induction h with
  | none => rfl
  | one a => rw [List.flatMap_singleton]
  | @more a comma hcomma next items parts h ih =>
    rw [List.flatMap_append, List.flatMap_cons, hf comma hcomma, List.nil_append, ih]
    rfl

/-- **What is carried along** the parts is what is carried along the parts of
each item, if a comma is passed over. -/
theorem foldl_eq (h : CommaList partsOf items parts) {step : β → Node → β}
    (hstep : ∀ (b : β) (comma : Node), comma.kind = "," → step b comma = b) (b : β) :
    parts.foldl step b = items.foldl (fun b a => (partsOf a).foldl step b) b := by
  induction h generalizing b with
  | none => rfl
  | one a => rfl
  | @more a comma hcomma next items parts h ih =>
    rw [List.foldl_append, List.foldl_cons, hstep _ comma hcomma, ih]
    rfl

end CommaList

end TestAccess.Node
