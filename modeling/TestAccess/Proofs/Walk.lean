import TestAccess.Tree.Site
import Mathlib.Data.List.Chain

/-!
# The walk of a tree

The walk lists the nodes of a tree, each with its ancestors. Nothing else in
the program looks at where a node stands, so the walk has to be right about
it, and `mem_walk_iff` says that it is: an occurrence is in the walk exactly
when its node and its ancestors form a path of the tree, from the node up to
the root, each node a part of the next.

The rest of the module says what the scan reads off an occurrence: which
nodes are its attributes (`mem_attributes_iff`), when it is a site and what
the site takes from it (`site?_eq_some_iff`), and that the sites of a scan are
those of the walk (`mem_scan_iff`).
-/

namespace TestAccess

namespace Node

/-- **Induction over a tree**: what holds of a node as soon as it holds of its
parts holds of every node. -/
theorem induction_on {motive : Node → Prop} (n : Node)
    (step : ∀ n, (∀ c ∈ n.children, motive c) → motive n) : motive n :=
  match n with
  | .mk kind range named fields children =>
    step (.mk kind range named fields children) (fun c hc =>
      have : sizeOf c < sizeOf children := List.sizeOf_lt_of_mem hc
      induction_on c step)
termination_by sizeOf n
decreasing_by
  rw [Node.mk.sizeOf_spec]
  omega

/-! ## Paths -/

/-- The occurrences of several nodes are those of each of them. -/
theorem occurrencesOfAll_eq_flatMap (ancestors : List Node) (ns : List Node) :
    occurrencesOfAll ancestors ns = ns.flatMap (occurrences ancestors) := by
  induction ns with
  | nil => rw [occurrencesOfAll, List.flatMap_nil]
  | cons n ns ih => rw [occurrencesOfAll, ih, List.flatMap_cons]

/-- The occurrences of a node: itself, and those of its parts. -/
theorem occurrences_eq (ancestors : List Node) (n : Node) :
    occurrences ancestors n
      = ⟨n, ancestors⟩ :: n.children.flatMap (occurrences (n :: ancestors)) := by
  cases n
  rw [occurrences, occurrencesOfAll_eq_flatMap, children]

theorem mem_occurrences_iff (ancestors : List Node) (n : Node) (o : Occurrence) :
    o ∈ occurrences ancestors n ↔
      o = ⟨n, ancestors⟩ ∨ ∃ c ∈ n.children, o ∈ occurrences (n :: ancestors) c := by
  rw [occurrences_eq, List.mem_cons, List.mem_flatMap]

theorem self_mem_occurrences (ancestors : List Node) (n : Node) :
    ⟨n, ancestors⟩ ∈ occurrences ancestors n :=
  (mem_occurrences_iff ..).mpr (Or.inl rfl)

/-- What occurs below a part of a node occurs below the node. -/
theorem mem_occurrences_of_part {ancestors : List Node} {n c : Node} {o : Occurrence}
    (hc : c ∈ n.children) (ho : o ∈ occurrences (n :: ancestors) c) :
    o ∈ occurrences ancestors n :=
  (mem_occurrences_iff ..).mpr (Or.inr ⟨c, hc, ho⟩)

/-- A node is a part of the next one. -/
def IsPartOf (part n : Node) : Prop := part ∈ n.children

/-- The occurrences below a node with given ancestors: the paths that end in
it, with these ancestors behind. -/
theorem mem_occurrences_iff_isChain (ancestors : List Node) (n : Node) (o : Occurrence) :
    o ∈ occurrences ancestors n ↔
      ∃ path, o.node :: o.ancestors = path ++ n :: ancestors
        ∧ (path ++ [n]).IsChain IsPartOf := by
  induction n using induction_on generalizing ancestors with
  | step n ih =>
    rw [mem_occurrences_iff]
    constructor
    · rintro (rfl | ⟨c, hc, ho⟩)
      · exact ⟨[], rfl, List.isChain_singleton n⟩
      · obtain ⟨path, hpath, hchain⟩ := (ih c hc (n :: ancestors)).mp ho
        refine ⟨path ++ [c], ?_, ?_⟩
        · rw [hpath, List.append_assoc, List.singleton_append]
        · rw [List.append_assoc, List.singleton_append, List.isChain_append_cons_cons]
          exact ⟨hchain, hc, List.isChain_singleton n⟩
    · rintro ⟨path, hpath, hchain⟩
      -- the last node of the path is the part of `n` that the path goes through
      rcases List.eq_nil_or_concat path with rfl | ⟨path, c, rfl⟩
      · obtain ⟨hnode, hancestors⟩ := List.cons_eq_cons.mp hpath
        exact Or.inl (by cases o; exact congrArg₂ Occurrence.mk hnode hancestors)
      · rw [List.concat_eq_append, List.append_assoc, List.singleton_append] at hpath hchain
        rw [List.isChain_append_cons_cons] at hchain
        obtain ⟨hchain, hc, -⟩ := hchain
        exact Or.inr ⟨c, hc, (ih c hc (n :: ancestors)).mpr ⟨path, hpath, hchain⟩⟩

/-- **An occurrence is in a tree** when its node and its ancestors are a path
of the tree up to the root. -/
def Occurrence.IsIn (root : Node) (o : Occurrence) : Prop :=
  (o.node :: o.ancestors).IsChain IsPartOf
    ∧ (o.node :: o.ancestors).getLast? = some root

/-- **The walk lists the paths of the tree**: a node is in it with exactly the
nodes on the way from it up to the root. -/
theorem mem_walk_iff (root : Node) (o : Occurrence) : o ∈ root.walk ↔ o.IsIn root := by
  rw [walk, mem_occurrences_iff_isChain]
  unfold Occurrence.IsIn
  constructor
  · rintro ⟨path, hpath, hchain⟩
    rw [hpath, List.getLast?_append, List.getLast?_singleton]
    exact ⟨hchain, rfl⟩
  · rintro ⟨hchain, hlast⟩
    obtain ⟨path, hpath⟩ := List.getLast?_eq_some_iff.mp hlast
    rw [hpath] at hchain
    exact ⟨path, hpath, hchain⟩

/-- The ancestors of a node are behind every occurrence below it. -/
theorem mem_ancestors_of_mem_occurrences {ancestors : List Node} {n x : Node}
    {o : Occurrence} (ho : o ∈ occurrences ancestors n) (hx : x ∈ ancestors) :
    x ∈ o.ancestors := by
  induction n using induction_on generalizing ancestors with
  | step n ih =>
    rcases (mem_occurrences_iff ancestors n o).mp ho with rfl | ⟨c, hc, ho⟩
    · exact hx
    · exact ih c hc ho (List.mem_cons_of_mem _ hx)

/-- What occurs below an occurrence of a walk is in the walk. -/
theorem mem_of_mem_occurrences {ancestors : List Node} {n : Node} {o o' : Occurrence}
    (ho : o ∈ occurrences ancestors n) (ho' : o' ∈ occurrences o.ancestors o.node) :
    o' ∈ occurrences ancestors n := by
  induction n using induction_on generalizing ancestors with
  | step n ih =>
    rcases (mem_occurrences_iff ancestors n o).mp ho with rfl | ⟨c, hc, ho⟩
    · exact ho'
    · exact mem_occurrences_of_part hc (ih c hc ho)

/-! ## Attributes -/

/-- **The attributes of a declaration** are the attributes among its parts and
those in its lists of modifiers. -/
theorem mem_attributes_iff (n a : Node) :
    a ∈ n.attributes ↔
      a.kind = "attribute"
        ∧ (a ∈ n.children ∨ ∃ m ∈ n.children, m.kind = "modifiers" ∧ a ∈ m.children) := by
  unfold attributes
  rw [List.mem_flatMap]
  constructor
  · rintro ⟨part, hpart, ha⟩
    unfold attributesOfPart at ha
    split at ha
    · rename_i hkind
      obtain rfl := List.mem_singleton.mp ha
      exact ⟨hkind, Or.inl hpart⟩
    · split at ha
      · rename_i hkind
        obtain ⟨ha, hattr⟩ := List.mem_filter.mp ha
        exact ⟨eq_of_beq hattr, Or.inr ⟨part, hpart, hkind, ha⟩⟩
      · exact absurd ha (List.not_mem_nil)
  · rintro ⟨hkind, ha | ⟨m, hm, hmkind, ha⟩⟩
    · refine ⟨a, ha, ?_⟩
      rw [attributesOfPart, if_pos hkind]
      exact List.mem_singleton_self a
    · refine ⟨m, hm, ?_⟩
      rw [attributesOfPart, if_neg (by rw [hmkind]; decide), if_pos hmkind]
      exact List.mem_filter.mpr ⟨ha, beq_of_eq hkind⟩

/-- An attribute of a node occurs below it. -/
theorem exists_mem_occurrences_of_mem_attributes (ancestors : List Node) {n a : Node}
    (ha : a ∈ n.attributes) : ∃ between, ⟨a, between⟩ ∈ occurrences ancestors n := by
  obtain ⟨-, ha | ⟨m, hm, -, ha⟩⟩ := (mem_attributes_iff n a).mp ha
  · exact ⟨n :: ancestors, mem_occurrences_of_part ha (self_mem_occurrences ..)⟩
  · refine ⟨m :: n :: ancestors, mem_occurrences_of_part hm ?_⟩
    exact mem_occurrences_of_part ha (self_mem_occurrences ..)

/-! ## Sites -/

/-- A declaration is neither an attribute nor a list of modifiers. -/
theorem kind_ne_of_isDeclaration {n : Node} (h : n.isDeclaration = true) :
    n.kind ≠ "attribute" ∧ n.kind ≠ "modifiers" := by
  unfold isDeclaration at h
  constructor
  · intro hkind
    rw [hkind] at h
    exact absurd h (by decide)
  · intro hkind
    rw [hkind] at h
    exact absurd h (by decide)

/-- **When an occurrence is a site**, and what the site takes from it. -/
theorem Occurrence.site?_eq_some_iff (source : List Char) (name : String) (o : Occurrence)
    (s : Site) :
    o.site? source name = some s ↔
      o.node.isDeclaration = true ∧ ∃ a, o.node.marker? source name = some a
        ∧ s = { request := o.request source name,
                declaration := o.node.range,
                marker := a.range,
                indentation :=
                  String.ofList (Chars.indentationAt source o.node.range.start) } := by
  unfold site?
  split
  · rename_i h
    rw [Option.map_eq_some_iff]
    simp only [h, true_and, eq_comm]
  · rename_i h
    simp [h]

/-- The annotation of a declaration is one of its attributes. -/
theorem mem_attributes_of_marker? {source : List Char} {name : String} {n a : Node}
    (h : n.marker? source name = some a) : a ∈ n.attributes :=
  List.mem_of_find?_eq_some h

/-- **The sites of a scan** are the sites of the walk. -/
theorem mem_scan_iff (source name : String) (root : Node) (s : Site) :
    s ∈ root.scan source name ↔ ∃ o ∈ root.walk, o.site? source.toList name = some s := by
  rw [scan, List.mem_mergeSort, List.mem_filterMap]

end Node

end TestAccess
