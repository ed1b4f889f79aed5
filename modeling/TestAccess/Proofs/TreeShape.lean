import TestAccess.Proofs.Edits
import TestAccess.Proofs.Walk

/-!
# Trees over a source

A tree that a parser makes of a source has a shape that the program relies on
and never checks: every node covers a stretch of the source, the parts of a
node lie in it one behind the other, and an attribute begins with a character
one can see. `Node.IsTreeOver` says that of every node of a tree.

What follows from it is where two nodes of the tree can lie. In the order of
the walk the second of two nodes is either below the first or begins where the
first has ended (`pairwise_before_walk`). And a declaration below a node is
separate from each attribute of the node, unless it lies in an attribute
itself (`separate_of_mem_attributes`).
-/

namespace TestAccess

namespace Node

/-- **A node is placed over a source**, as far as it and its parts are
concerned. -/
structure IsPlaced (source : List Char) (n : Node) : Prop where
  /-- The node lies in the source, between characters. -/
  isProper : n.range.IsProper source
  /-- The parts lie in the node. -/
  within : ∀ c ∈ n.children, c.range.Within n.range
  /-- The parts are in order and do not overlap. -/
  inOrder : n.children.Pairwise (fun a b => a.range.stop ≤ b.range.start)
  /-- An attribute is not empty and does not begin with a blank. -/
  opens : n.kind = "attribute" →
    ∃ c ∈ (Chars.slice source n.range.start n.range.stop).head?, isBlank c = false

instance (source : List Char) (n : Node) : Decidable (n.IsPlaced source) :=
  decidable_of_iff
    (n.range.IsProper source
      ∧ (∀ c ∈ n.children, c.range.Within n.range)
      ∧ n.children.Pairwise (fun a b => a.range.stop ≤ b.range.start)
      ∧ (n.kind = "attribute" →
        (Chars.slice source n.range.start n.range.stop).head?.any (fun c => !isBlank c) = true))
    (by
      simp only [Option.any_eq_true, Bool.not_eq_true']
      exact ⟨fun ⟨h₁, h₂, h₃, h₄⟩ => ⟨h₁, h₂, h₃, h₄⟩, fun ⟨h₁, h₂, h₃, h₄⟩ => ⟨h₁, h₂, h₃, h₄⟩⟩)

/-- **A tree over a source**: all of its nodes are placed over it. -/
def IsTreeOver (source : List Char) (root : Node) : Prop :=
  ∀ o ∈ root.walk, o.node.IsPlaced source

instance (source : List Char) (root : Node) : Decidable (root.IsTreeOver source) :=
  inferInstanceAs (Decidable (∀ o ∈ root.walk, o.node.IsPlaced source))

/-! ## Where nodes lie -/

/-- What occurs below a node lies in it. -/
theorem within_of_mem_occurrences {source : List Char} {ancestors : List Node} {n : Node}
    (h : ∀ o ∈ occurrences ancestors n, o.node.IsPlaced source) {o : Occurrence}
    (ho : o ∈ occurrences ancestors n) : o.node.range.Within n.range := by
  induction n using induction_on generalizing ancestors with
  | step n ih =>
    have hn := h ⟨n, ancestors⟩ (self_mem_occurrences ..)
    rcases (mem_occurrences_iff ancestors n o).mp ho with rfl | ⟨c, hc, hoc⟩
    · exact ⟨Nat.le_refl _, Nat.le_refl _⟩
    · refine (ih c hc (fun o' ho' => ?_) hoc).trans (hn.within c hc)
      exact h o' (mem_occurrences_of_part hc ho')

/-- **One occurrence comes before another**: the other is below it, or begins
where it has ended. -/
def Occurrence.Before (o o' : Occurrence) : Prop :=
  o.node.range.stop ≤ o'.node.range.start
    ∨ ∃ c ∈ o.node.children, o' ∈ occurrences (o.node :: o.ancestors) c

/-- The occurrences of a placed node come one before the other. -/
theorem pairwise_before_occurrences {source : List Char} {ancestors : List Node} {n : Node}
    (h : ∀ o ∈ occurrences ancestors n, o.node.IsPlaced source) :
    (occurrences ancestors n).Pairwise Occurrence.Before := by
  induction n using induction_on generalizing ancestors with
  | step n ih =>
    have hn := h ⟨n, ancestors⟩ (self_mem_occurrences ..)
    have hparts : ∀ c ∈ n.children, ∀ o ∈ occurrences (n :: ancestors) c,
        o.node.IsPlaced source := fun c hc o ho =>
      h o (mem_occurrences_of_part hc ho)
    rw [occurrences_eq, List.pairwise_cons, List.pairwise_flatMap]
    refine ⟨fun o ho => ?_, fun c hc => ih c hc (hparts c hc), ?_⟩
    · exact Or.inr (List.mem_flatMap.mp ho)
    · -- occurrences below two parts are apart because the parts are
      refine hn.inOrder.imp_of_mem (fun {c c'} hc hc' hle o ho o' ho' => Or.inl ?_)
      have hin := within_of_mem_occurrences (hparts c hc) ho
      have hin' := within_of_mem_occurrences (hparts c' hc') ho'
      exact Nat.le_trans hin.2 (Nat.le_trans hle hin'.1)

/-- **The walk of a tree over a source** lists its nodes one before the
other. -/
theorem pairwise_before_walk {source : List Char} {root : Node}
    (h : root.IsTreeOver source) : root.walk.Pairwise Occurrence.Before :=
  pairwise_before_occurrences h

/-- All that occurs below an occurrence of a tree over a source is placed. -/
theorem IsTreeOver.isPlaced_below {source : List Char} {root : Node}
    (h : root.IsTreeOver source) {o : Occurrence} (ho : o ∈ root.walk) {o' : Occurrence}
    (ho' : o' ∈ occurrences o.ancestors o.node) : o'.node.IsPlaced source :=
  h o' (mem_of_mem_occurrences ho ho')

/-! ## Declarations and attributes -/

/-- The attributes of a node of a tree over a source are placed, and lie in
the node. -/
theorem IsTreeOver.isPlaced_attribute {source : List Char} {root : Node}
    (h : root.IsTreeOver source) {o : Occurrence} (ho : o ∈ root.walk) {a : Node}
    (ha : a ∈ o.node.attributes) : a.IsPlaced source ∧ a.range.Within o.node.range := by
  obtain ⟨between, hbetween⟩ := exists_mem_occurrences_of_mem_attributes o.ancestors ha
  exact ⟨h.isPlaced_below ho hbetween,
    within_of_mem_occurrences (fun o' ho' => h.isPlaced_below ho ho') hbetween⟩

/-- They begin with a character that is not blank, and so are not empty. -/
theorem IsTreeOver.attribute_opens {source : List Char} {root : Node}
    (h : root.IsTreeOver source) {o : Occurrence} (ho : o ∈ root.walk) {a : Node}
    (ha : a ∈ o.node.attributes) :
    (∃ c, Chars.BeginsAt source a.range.start c ∧ isBlank c = false)
      ∧ a.range.start < a.range.stop := by
  obtain ⟨hplaced, -⟩ := h.isPlaced_attribute ho ha
  obtain ⟨c, hc, hblank⟩ := hplaced.opens ((mem_attributes_iff ..).mp ha).1
  obtain ⟨rest, hslice⟩ := List.head?_eq_some_iff.mp hc
  have hstart := hplaced.isProper.isBoundary_start
  refine ⟨⟨c, Chars.beginsAt_of_slice_eq_cons hstart hslice, hblank⟩, ?_⟩
  have hmem : c ∈ Chars.slice source a.range.start a.range.stop := List.mem_of_mem_head? hc
  obtain ⟨p, -, hle, hlt⟩ := (Chars.mem_slice_iff hstart ..).mp hmem
  exact Nat.lt_of_le_of_lt hle hlt

/-- Of nodes that lie one behind the other, two that are not the same are
separate. -/
theorem separate_of_pairwise {ns : List Node}
    (h : ns.Pairwise (fun a b => a.range.stop ≤ b.range.start)) {a b : Node} (ha : a ∈ ns)
    (hb : b ∈ ns) (hab : a ≠ b) : a.range.Separate b.range := by
  have _ : Std.Symm (fun a b : Node => a.range.Separate b.range) := ⟨fun _ _ h => h.symm⟩
  have hsep : ns.Pairwise (fun a b => a.range.Separate b.range) :=
    h.imp (fun hle => Or.inl hle)
  exact hsep.forall ha hb hab

/-- Two parts of a placed node that are not the same are separate. -/
theorem IsPlaced.separate {source : List Char} {n : Node} (h : n.IsPlaced source)
    {a b : Node} (ha : a ∈ n.children) (hb : b ∈ n.children) (hab : a ≠ b) :
    a.range.Separate b.range :=
  separate_of_pairwise h.inOrder ha hb hab

/-- A declaration below some part of a node is separate from an attribute
among the parts, unless it lies in an attribute. -/
theorem separate_of_mem_children {source : List Char} {ancestors : List Node} {n : Node}
    (h : ∀ o ∈ occurrences ancestors n, o.node.IsPlaced source) {a c : Node}
    (ha : a ∈ n.children) (hkind : a.kind = "attribute") (hc : c ∈ n.children)
    {o : Occurrence} (ho : o ∈ occurrences (n :: ancestors) c)
    (hdecl : o.node.isDeclaration = true) (hout : ∀ x ∈ o.ancestors, x.kind ≠ "attribute") :
    a.range.Separate o.node.range := by
  have hn := h ⟨n, ancestors⟩ (self_mem_occurrences ..)
  have hin : o.node.range.Within c.range := within_of_mem_occurrences
    (fun o' ho' => h o' (mem_occurrences_of_part hc ho')) ho
  by_cases hac : a = c
  · -- the declaration would be the attribute, or lie in it
    subst hac
    rcases (mem_occurrences_iff (n :: ancestors) a o).mp ho with rfl | ⟨d, -, hod⟩
    · exact absurd hkind (kind_ne_of_isDeclaration hdecl).1
    · exact absurd hkind
        (hout a (mem_ancestors_of_mem_occurrences hod (List.mem_cons_self ..)))
  · exact (hn.separate ha hc hac).mono ⟨Nat.le_refl _, Nat.le_refl _⟩ hin

/-- **A declaration below a node is separate from the attributes of the
node**, unless it lies in an attribute. -/
theorem separate_of_mem_attributes {source : List Char} {ancestors : List Node} {n : Node}
    (h : ∀ o ∈ occurrences ancestors n, o.node.IsPlaced source) {a c : Node}
    (ha : a ∈ n.attributes) (hc : c ∈ n.children) {o : Occurrence}
    (ho : o ∈ occurrences (n :: ancestors) c) (hdecl : o.node.isDeclaration = true)
    (hout : ∀ x ∈ o.ancestors, x.kind ≠ "attribute") : a.range.Separate o.node.range := by
  obtain ⟨hkind, ha | ⟨m, hm, hmkind, ha⟩⟩ := (mem_attributes_iff n a).mp ha
  · exact separate_of_mem_children h ha hkind hc ho hdecl hout
  · have hbelow : ∀ c ∈ n.children, ∀ o' ∈ occurrences (n :: ancestors) c,
        o'.node.IsPlaced source := fun c hc o' ho' =>
      h o' (mem_occurrences_of_part hc ho')
    by_cases hmc : m = c
    · -- below the list of modifiers itself, the attribute is one of the parts
      subst hmc
      rcases (mem_occurrences_iff (n :: ancestors) m o).mp ho with rfl | ⟨d, hd, hod⟩
      · exact absurd hmkind (kind_ne_of_isDeclaration hdecl).2
      · exact separate_of_mem_children (hbelow m hm) ha hkind hd hod hdecl hout
    · have hn := h ⟨n, ancestors⟩ (self_mem_occurrences ..)
      have hplaced := hbelow m hm ⟨m, n :: ancestors⟩ (self_mem_occurrences ..)
      exact (hn.separate hm hc hmc).mono (hplaced.within a ha)
        (within_of_mem_occurrences (hbelow c hc) ho)

end Node

end TestAccess
