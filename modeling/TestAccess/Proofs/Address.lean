import TestAccess.Proofs.TreeShape

/-!
# Addresses in a tree

Two nodes of a tree may be equal and still be two nodes. What tells them apart
is the **address**: the way from the root to the node, at each step the number
of the part to go to. `locate?` follows an address and gives what occurs there,
the node with its ancestors.

Addresses are compared as lists: the first number in which they differ
decides, and an address comes before those that go on from it. That is the
order of a walk. `addressed` is the walk with the address of every occurrence
beside it, and its three laws say that it is the walk
(`map_snd_addressed`), that it has exactly one entry for every address of the
tree (`mem_addressed_iff`, together with the next one), and that the addresses
in it increase (`pairwise_lt_addressed`).

Where the parts of every node lie in it, one behind the other, a node with a
smaller address does not begin later (`start_le_of_lt`).
-/

namespace TestAccess

namespace Node

/-- **What occurs at an address**, below a node with the given ancestors. -/
def locate? (ancestors : List Node) (n : Node) : List Nat → Option Occurrence
  | [] => some ⟨n, ancestors⟩
  | i :: address => n.children[i]?.bind fun c => locate? (n :: ancestors) c address

/-- An address that is not empty leads through a part. -/
theorem locate?_cons_eq_some_iff (ancestors : List Node) (n : Node) (i : Nat)
    (address : List Nat) (o : Occurrence) :
    n.locate? ancestors (i :: address) = some o ↔
      ∃ c, n.children[i]? = some c ∧ c.locate? (n :: ancestors) address = some o := by
  rw [locate?, Option.bind_eq_some_iff]

/-! ## The walk with its addresses -/

mutual

/-- The occurrences of a node and all below it with their addresses, in
pre-order. -/
def addressed (ancestors : List Node) : Node → List (List Nat × Occurrence)
  | .mk kind range named fields children =>
    let node := Node.mk kind range named fields children
    ([], ⟨node, ancestors⟩) :: addressedOfAll (node :: ancestors) 0 children

/-- The same for several nodes, which are numbered from `first` on. -/
def addressedOfAll (ancestors : List Node) (first : Nat) :
    List Node → List (List Nat × Occurrence)
  | [] => []
  | n :: ns =>
    (addressed ancestors n).map (fun e => (first :: e.1, e.2))
      ++ addressedOfAll ancestors (first + 1) ns

end

theorem addressedOfAll_eq_flatMap (ancestors : List Node) (first : Nat) (ns : List Node) :
    addressedOfAll ancestors first ns
      = (ns.zipIdx first).flatMap (fun part =>
          (addressed ancestors part.1).map (fun e => (part.2 :: e.1, e.2))) := by
  induction ns generalizing first with
  | nil => rw [addressedOfAll, List.zipIdx_nil, List.flatMap_nil]
  | cons n ns ih => rw [addressedOfAll, ih, List.zipIdx_cons, List.flatMap_cons]

/-- The entries of a node: its own, and those of its parts behind the number
of the part. -/
theorem addressed_eq (ancestors : List Node) (n : Node) :
    addressed ancestors n
      = ([], ⟨n, ancestors⟩) :: n.children.zipIdx.flatMap (fun part =>
          (addressed (n :: ancestors) part.1).map (fun e => (part.2 :: e.1, e.2))) := by
  cases n
  rw [addressed, addressedOfAll_eq_flatMap, children]

/-- **Without its addresses it is the walk.** -/
theorem map_snd_addressed (ancestors : List Node) (n : Node) :
    (addressed ancestors n).map Prod.snd = occurrences ancestors n := by
  induction n using induction_on generalizing ancestors with
  | step n ih =>
    have hparts : ∀ part ∈ n.children.zipIdx,
        ((addressed (n :: ancestors) part.1).map (fun e => (part.2 :: e.1, e.2))).map Prod.snd
          = occurrences (n :: ancestors) part.1 := by
      intro part hpart
      rw [List.map_map, ← ih part.1 (List.fst_mem_of_mem_zipIdx hpart) (n :: ancestors)]
      rfl
    rw [addressed_eq, occurrences_eq, List.map_cons, List.map_flatMap,
      List.flatMap_congr hparts]
    conv_rhs => rw [← List.zipIdx_map_fst 0 n.children, List.flatMap_map]

/-- **Every address of the tree has its entry**, with what occurs there. -/
theorem mem_addressed_iff (ancestors : List Node) (n : Node) (address : List Nat)
    (o : Occurrence) :
    (address, o) ∈ addressed ancestors n ↔ n.locate? ancestors address = some o := by
  induction n using induction_on generalizing ancestors address with
  | step n ih =>
    rw [addressed_eq, List.mem_cons, List.mem_flatMap]
    cases address with
    | nil =>
      constructor
      · rintro (h | ⟨part, -, h⟩)
        · rw [(Prod.mk.inj h).2, locate?]
        · obtain ⟨e, -, he⟩ := List.mem_map.mp h
          exact absurd (Prod.mk.inj he).1 (List.cons_ne_nil _ _)
      · intro h
        exact Or.inl (by rw [← Option.some.inj h])
    | cons i address =>
      rw [locate?_cons_eq_some_iff]
      constructor
      · rintro (h | ⟨part, hpart, h⟩)
        · exact absurd (Prod.mk.inj h).1 (List.cons_ne_nil _ _)
        · obtain ⟨e, hmem, he⟩ := List.mem_map.mp h
          obtain ⟨haddress, rfl⟩ := Prod.mk.inj he
          obtain ⟨rfl, rfl⟩ := List.cons_eq_cons.mp haddress
          exact ⟨part.1, List.mem_zipIdx_iff_getElem?.mp hpart,
            (ih part.1 (List.fst_mem_of_mem_zipIdx hpart) _ _).mp hmem⟩
      · rintro ⟨c, hc, ho⟩
        refine Or.inr ⟨(c, i), List.mem_zipIdx_iff_getElem?.mpr hc, List.mem_map.mpr ?_⟩
        exact ⟨(address, o), (ih c (List.mem_of_getElem? hc) _ _).mpr ho, rfl⟩

/-- **A walk lists what occurs at the addresses** of the tree. -/
theorem mem_walk_iff_exists_locate? (root : Node) (o : Occurrence) :
    o ∈ root.walk ↔ ∃ address, root.locate? [] address = some o := by
  simp only [walk, ← map_snd_addressed, List.mem_map, ← mem_addressed_iff]
  constructor
  · rintro ⟨e, he, rfl⟩
    exact ⟨e.1, he⟩
  · rintro ⟨address, he⟩
    exact ⟨(address, o), he, rfl⟩

/-- **A walk goes through the addresses in order.** -/
theorem pairwise_lt_addressed (ancestors : List Node) (n : Node) :
    (addressed ancestors n).Pairwise (fun d e => d.1 < e.1) := by
  induction n using induction_on generalizing ancestors with
  | step n ih =>
    rw [addressed_eq, List.pairwise_cons, List.pairwise_flatMap]
    refine ⟨fun e he => ?_, fun part hpart => ?_, ?_⟩
    · obtain ⟨part, -, he⟩ := List.mem_flatMap.mp he
      obtain ⟨e, -, rfl⟩ := List.mem_map.mp he
      exact List.nil_lt_cons ..
    · rw [List.pairwise_map]
      refine (ih part.1 (List.fst_mem_of_mem_zipIdx hpart) (n :: ancestors)).imp ?_
      intro d e hde
      exact List.cons_lt_cons_iff.mpr (Or.inr ⟨rfl, hde⟩)
    · -- the parts are numbered in order, and the number is the first to be compared
      have hnumbers : n.children.zipIdx.Pairwise (fun part part' => part.2 < part'.2) := by
        rw [← List.pairwise_map (R := (· < ·)), List.zipIdx_map_snd]
        exact List.pairwise_lt_range'
      refine hnumbers.imp (fun {part part'} hlt d hd e he => ?_)
      obtain ⟨d, -, rfl⟩ := List.mem_map.mp hd
      obtain ⟨e, -, rfl⟩ := List.mem_map.mp he
      exact List.cons_lt_cons_iff.mpr (Or.inl hlt)

/-! ## Nested ranges -/

/-- **A node is nested**, as far as it and its parts are concerned: its range
does not run backwards, and its parts lie in it, one behind the other. -/
structure IsNested (n : Node) : Prop where
  start_le_stop : n.range.start ≤ n.range.stop
  /-- The parts lie in the node. -/
  within : ∀ c ∈ n.children, c.range.Within n.range
  /-- The parts are in order and do not overlap. -/
  inOrder : n.children.Pairwise (fun a b => a.range.stop ≤ b.range.start)

/-- **All nodes of a tree are nested.** -/
def IsNestedTree (root : Node) : Prop :=
  ∀ address o, root.locate? [] address = some o → o.node.IsNested

/-- A tree over a source is nested. -/
theorem IsTreeOver.isNestedTree {source : List Char} {root : Node}
    (h : root.IsTreeOver source) : root.IsNestedTree := by
  intro address o ho
  have hplaced := h o ((mem_walk_iff_exists_locate? ..).mpr ⟨address, ho⟩)
  exact ⟨hplaced.isProper.start_le_stop, hplaced.within, hplaced.inOrder⟩

section Nested

variable {ancestors : List Node} {n : Node}

/-- What occurs at an address below a nested node lies in it. -/
theorem within_of_locate?
    (h : ∀ address o, n.locate? ancestors address = some o → o.node.IsNested)
    {address : List Nat} {o : Occurrence} (ho : n.locate? ancestors address = some o) :
    o.node.range.Within n.range := by
  induction address generalizing n ancestors with
  | nil =>
    rw [← Option.some.inj ho]
    exact ⟨Nat.le_refl _, Nat.le_refl _⟩
  | cons i address ih =>
    obtain ⟨c, hc, hoc⟩ := (locate?_cons_eq_some_iff ..).mp ho
    have hn : n.IsNested := h [] ⟨n, ancestors⟩ rfl
    refine (ih (fun address' o' ho' => ?_) hoc).trans (hn.within c (List.mem_of_getElem? hc))
    exact h (i :: address') o' ((locate?_cons_eq_some_iff ..).mpr ⟨c, hc, ho'⟩)

/-- **A smaller address does not begin later**, where all nodes are nested. -/
theorem start_le_of_lt
    (h : ∀ address o, n.locate? ancestors address = some o → o.node.IsNested)
    {address address' : List Nat} {o o' : Occurrence}
    (ho : n.locate? ancestors address = some o)
    (ho' : n.locate? ancestors address' = some o') (hlt : address < address') :
    o.node.range.start ≤ o'.node.range.start := by
  induction address generalizing n ancestors address' with
  | nil =>
    rw [← Option.some.inj ho]
    exact (within_of_locate? h ho').1
  | cons i address ih =>
    cases address' with
    | nil => exact absurd hlt (List.not_lt_nil _)
    | cons j address' =>
      obtain ⟨c, hc, hoc⟩ := (locate?_cons_eq_some_iff ..).mp ho
      obtain ⟨c', hc', hoc'⟩ := (locate?_cons_eq_some_iff ..).mp ho'
      have hbelow : ∀ address₁ o₁, c.locate? (n :: ancestors) address₁ = some o₁ →
          o₁.node.IsNested := fun address₁ o₁ h₁ =>
        h (i :: address₁) o₁ ((locate?_cons_eq_some_iff ..).mpr ⟨c, hc, h₁⟩)
      rcases List.cons_lt_cons_iff.mp hlt with hij | ⟨rfl, hrest⟩
      · -- the two ways part here, and the part of the first ends before the other begins
        have hn : n.IsNested := h [] ⟨n, ancestors⟩ rfl
        obtain ⟨hi, rfl⟩ := List.getElem?_eq_some_iff.mp hc
        obtain ⟨hj, rfl⟩ := List.getElem?_eq_some_iff.mp hc'
        have hparts := List.pairwise_iff_getElem.mp hn.inOrder i j hi hj hij
        have hin := within_of_locate? hbelow hoc
        have hin' := within_of_locate? (fun address₁ o₁ h₁ => h (j :: address₁) o₁
          ((locate?_cons_eq_some_iff ..).mpr ⟨_, hc', h₁⟩)) hoc'
        calc o.node.range.start
            ≤ o.node.range.stop := (hbelow address o hoc).start_le_stop
          _ ≤ n.children[i].range.stop := hin.2
          _ ≤ n.children[j].range.start := hparts
          _ ≤ o'.node.range.start := hin'.1
      · obtain rfl := Option.some.inj (hc.symm.trans hc')
        exact ih hbelow hoc hoc' hrest

end Nested

end Node

end TestAccess
