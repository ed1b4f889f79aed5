import TestAccess.Proofs.Address
import TestAccess.Proofs.PointwiseSplice
import TestAccess.Proofs.SiteEdits
import Mathlib.Data.List.Forall2

/-!
# A scan finds every annotated declaration once

A scan walks a tree, keeps the declarations that carry the annotation, and
sorts what it made of them by where they begin. `scan_sites` says what comes
out in terms of the tree alone. There is an entry for every address at which
an annotated declaration stands, wherever that is, and for no other; the sites
are those of the entries, one for each, in order; and the entries are ordered
by where their declarations begin, those that begin together by their
addresses, that is, as in a walk of the tree.

The sort is stable, and that is why addresses decide between declarations that
begin together (`pairwise_mergeSort_of_pairwise`). Where all nodes of the tree
are nested it has nothing to do: the walk is in that order already.
-/

namespace TestAccess

/-- **Sorting is stable**, pair by pair: what a list says of any two of its
elements in order, the sorted list says of any two that may stand in either
order. -/
theorem pairwise_mergeSort_of_pairwise {α : Type} {le : α → α → Bool}
    (htrans : ∀ a b c, le a b = true → le b c = true → le a c = true)
    (htotal : ∀ a b, (le a b || le b a) = true) {R : α → α → Prop} {l : List α}
    (h : l.Pairwise R) :
    (l.mergeSort le).Pairwise (fun a b => le a b = true ∧ (le b a = true → R a b)) := by
  have hsorted := List.pairwise_mergeSort htrans htotal l
  refine hsorted.and (List.pairwise_iff_forall_sublist.mpr (fun {a b} hsub hba => ?_))
  have hab : le a b = true := List.pairwise_iff_forall_sublist.mp hsorted hsub
  have haa : le a a = true := by
    have := htotal a a
    rwa [Bool.or_self] at this
  -- among the elements that tie with `a`, sorting changes nothing
  have hties := filter_mergeSort htrans htotal (fun x => le a x && le x a)
    (fun x y hx hy => htrans x a y (Bool.and_eq_true_iff.mp hx).2 (Bool.and_eq_true_iff.mp hy).1)
    l
  have hpair : [a, b].filter (fun x => le a x && le x a) = [a, b] := by
    simp [haa, hab, hba]
  have hkept : [a, b].Sublist (l.filter (fun x => le a x && le x a)) := by
    rw [← hties, ← hpair]
    exact hsub.filter _
  exact List.pairwise_iff_forall_sublist.mp h (hkept.trans List.filter_sublist)

/-! ## Annotated declarations -/

namespace Node

/-- **A declaration carries the annotation**: it is of a kind that may, and
among its parts, or among the parts of its modifiers, there is an attribute
with the name of the annotation. -/
def IsAnnotated (source : List Char) (name : String) (n : Node) : Prop :=
  n.kind ∈ declarationKinds
    ∧ ∃ a : Node, a.kind = "attribute"
      ∧ (a ∈ n.children ∨ ∃ m ∈ n.children, m.kind = "modifiers" ∧ a ∈ m.children)
      ∧ attributeName (a.text source) = name

theorem isAttributeNamed_iff (source : List Char) (name : String) (a : Node) :
    isAttributeNamed source name a = true ↔ attributeName (a.text source) = name := by
  rw [isAttributeNamed, beq_iff_eq]

/-- A node has a site exactly when it is an annotated declaration. -/
theorem Occurrence.isSome_site?_iff (source : List Char) (name : String) (o : Occurrence) :
    (∃ s, o.site? source name = some s) ↔ o.node.IsAnnotated source name := by
  have hdecl : o.node.isDeclaration = true ↔ o.node.kind ∈ declarationKinds := by
    rw [isDeclaration, List.contains_iff_mem]
  simp only [site?_eq_some_iff, IsAnnotated, hdecl]
  constructor
  · rintro ⟨s, hkind, a, ha, -⟩
    obtain ⟨hattr, hplace⟩ := (mem_attributes_iff ..).mp (mem_attributes_of_marker? ha)
    exact ⟨hkind, a, hattr, hplace, (isAttributeNamed_iff ..).mp (List.find?_some ha)⟩
  · rintro ⟨hkind, a, hattr, hplace, hname⟩
    have hsome : (o.node.marker? source name).isSome = true :=
      List.find?_isSome.mpr ⟨a, (mem_attributes_iff ..).mpr ⟨hattr, hplace⟩,
        (isAttributeNamed_iff ..).mpr hname⟩
    obtain ⟨b, hb⟩ := Option.isSome_iff_exists.mp hsome
    exact ⟨_, hkind, b, hb, rfl⟩

end Node

/-- **A site is that of an occurrence**: it asks for the accessors of its
node, is placed where the node is, and its annotation is the first attribute
of the node that has the name. -/
structure Site.IsOf (source : List Char) (name : String) (o : Node.Occurrence) (s : Site) :
    Prop where
  request : s.request = o.request source name
  declaration : s.declaration = o.node.range
  marker : ∃ front a back, o.node.attributes = front ++ a :: back
    ∧ (∀ x ∈ front, attributeName (x.text source) ≠ name)
    ∧ attributeName (a.text source) = name ∧ s.marker = a.range

/-- The site that is read off an occurrence is its site. -/
theorem Site.isOf_of_site? {source : List Char} {name : String} {o : Node.Occurrence} {s : Site}
    (h : o.site? source name = some s) : s.IsOf source name o := by
  obtain ⟨-, a, ha, rfl⟩ := (Node.Occurrence.site?_eq_some_iff ..).mp h
  refine ⟨rfl, rfl, ?_⟩
  obtain ⟨hname, front, back, hattributes, hfront⟩ := List.find?_eq_some_iff_append.mp ha
  refine ⟨front, a, back, hattributes, fun x hx => ?_, (Node.isAttributeNamed_iff ..).mp hname,
    rfl⟩
  have hx := hfront x hx
  rw [Bool.not_eq_true', ← Bool.not_eq_true, Node.isAttributeNamed_iff] at hx
  exact hx

/-- The line of a site is that of its declaration. -/
theorem Site.IsOf.line_eq {source : List Char} {name : String} {o : Node.Occurrence} {s : Site}
    (h : s.IsOf source name o) : s.line = Node.lineNumber source o.node.range.start := by
  rw [Site.line, h.request]
  rfl

/-- Further on, the number of the line is no smaller. -/
theorem Node.lineNumber_mono (source : List Char) {m n : Nat} (h : m ≤ n) :
    Node.lineNumber source m ≤ Node.lineNumber source n := by
  have hline := Chars.lineAt_mono source h
  unfold Node.lineNumber
  omega

/-! ## The sites of a scan -/

namespace Node

/-- The entries of a walk that have a site, with the site. -/
def addressedSites (source : List Char) (name : String) (root : Node) :
    List ((List Nat × Occurrence) × Site) :=
  (root.addressed []).filterMap fun e => (e.2.site? source name).map fun s => (e, s)

theorem mem_addressedSites_iff (source : List Char) (name : String) (root : Node)
    (x : (List Nat × Occurrence) × Site) :
    x ∈ root.addressedSites source name ↔
      root.locate? [] x.1.1 = some x.1.2 ∧ x.1.2.site? source name = some x.2 := by
  unfold addressedSites
  rw [List.mem_filterMap]
  constructor
  · rintro ⟨e, he, hx⟩
    obtain ⟨s, hs, rfl⟩ := Option.map_eq_some_iff.mp hx
    exact ⟨(mem_addressed_iff ..).mp he, hs⟩
  · rintro ⟨hlocate, hsite⟩
    refine ⟨x.1, (mem_addressed_iff ..).mpr hlocate, ?_⟩
    rw [hsite, Option.map_some]

/-- The order of a scan, on sites with their entries. -/
def beginsBefore (x y : (List Nat × Occurrence) × Site) : Bool :=
  x.2.declaration.start ≤ y.2.declaration.start

theorem beginsBefore_iff (x y : (List Nat × Occurrence) × Site) :
    beginsBefore x y = true ↔ x.2.declaration.start ≤ y.2.declaration.start := by
  rw [beginsBefore, decide_eq_true_iff]

/-- **The sites of a scan with their entries**, in the order of the scan. -/
def sortedSites (source : List Char) (name : String) (root : Node) :
    List ((List Nat × Occurrence) × Site) :=
  (root.addressedSites source name).mergeSort beginsBefore

theorem mem_sortedSites_iff (source : List Char) (name : String) (root : Node)
    (x : (List Nat × Occurrence) × Site) :
    x ∈ root.sortedSites source name ↔
      root.locate? [] x.1.1 = some x.1.2 ∧ x.1.2.site? source name = some x.2 := by
  rw [sortedSites, List.mem_mergeSort, mem_addressedSites_iff]

/-- A scan is the sites without their entries. -/
theorem scan_eq_map_snd (source name : String) (root : Node) :
    root.scan source name = (root.sortedSites source.toList name).map Prod.snd := by
  have hsites : (root.addressedSites source.toList name).map Prod.snd
      = root.walk.filterMap (Occurrence.site? source.toList name) := by
    rw [walk, ← map_snd_addressed, List.filterMap_map, addressedSites, List.map_filterMap]
    refine List.filterMap_congr (fun e _ => ?_)
    rw [Option.map_map]
    exact Option.map_id'
  rw [scan, ← hsites]
  refine Eq.symm (List.map_mergeSort ?_)
  intro x _ y _
  rfl

/-- The entries are in the order of their addresses before they are sorted. -/
theorem pairwise_lt_addressedSites (source : List Char) (name : String) (root : Node) :
    (root.addressedSites source name).Pairwise (fun x y => x.1.1 < y.1.1) := by
  unfold addressedSites
  rw [List.pairwise_filterMap]
  refine (pairwise_lt_addressed [] root).imp (fun {d e} hlt x hx y hy => ?_)
  obtain ⟨s, -, rfl⟩ := Option.map_eq_some_iff.mp hx
  obtain ⟨t, -, rfl⟩ := Option.map_eq_some_iff.mp hy
  exact hlt

/-- The sorted entries begin one behind the other, and are in the order of
their addresses where they begin together. -/
theorem pairwise_sortedSites (source : List Char) (name : String) (root : Node) :
    (root.sortedSites source name).Pairwise (fun x y =>
      x.2.declaration.start < y.2.declaration.start
        ∨ (x.2.declaration.start = y.2.declaration.start ∧ x.1.1 < y.1.1)) := by
  refine (pairwise_mergeSort_of_pairwise (fun x y z hxy hyz => ?_) (fun x y => ?_)
    (pairwise_lt_addressedSites source name root)).imp (fun {x y} hxy => ?_)
  · rw [beginsBefore_iff] at *
    exact Nat.le_trans hxy hyz
  · rw [Bool.or_eq_true, beginsBefore_iff, beginsBefore_iff]
    exact Nat.le_total ..
  · rw [beginsBefore_iff, beginsBefore_iff] at hxy
    rcases Nat.lt_or_eq_of_le hxy.1 with hlt | heq
    · exact Or.inl hlt
    · exact Or.inr ⟨heq, hxy.2 (Nat.le_of_eq heq.symm)⟩

/-- **Where all nodes are nested, there is nothing to sort.** -/
theorem sortedSites_of_isNestedTree {root : Node} (h : root.IsNestedTree)
    (source : List Char) (name : String) :
    root.sortedSites source name = root.addressedSites source name := by
  refine List.mergeSort_of_pairwise
    ((pairwise_lt_addressedSites source name root).imp_of_mem (fun {x y} hx hy hlt => ?_))
  obtain ⟨hlocate, hsite⟩ := (mem_addressedSites_iff ..).mp hx
  obtain ⟨hlocate', hsite'⟩ := (mem_addressedSites_iff ..).mp hy
  rw [beginsBefore_iff, (Site.isOf_of_site? hsite).declaration,
    (Site.isOf_of_site? hsite').declaration]
  exact start_le_of_lt h hlocate hlocate' hlt

/-- **A scan finds every annotated declaration of a tree once, and nothing
else.** There is one entry for every address at which an annotated declaration
stands, and the sites are those of the entries, one for each. The entries are
in the order in which their declarations begin, and those that begin together
in pre-order; so the lines of the sites never go back. Where all nodes of the
tree are nested, the entries are in pre-order altogether. -/
theorem scan_sites (source name : String) (root : Node) :
    ∃ entries : List (List Nat × Occurrence),
      (∀ address o, (address, o) ∈ entries ↔
        root.locate? [] address = some o ∧ o.node.IsAnnotated source.toList name)
      ∧ List.Forall₂ (fun e s => s.IsOf source.toList name e.2) entries (root.scan source name)
      ∧ entries.Pairwise (fun d e =>
          d.2.node.range.start < e.2.node.range.start
            ∨ (d.2.node.range.start = e.2.node.range.start ∧ d.1 < e.1))
      ∧ (root.scan source name).Pairwise (fun s t => s.line ≤ t.line)
      ∧ (root.IsNestedTree → entries.Pairwise (fun d e => d.1 < e.1)) := by
  have hof : ∀ x ∈ root.sortedSites source.toList name, x.2.IsOf source.toList name x.1.2 :=
    fun x hx => Site.isOf_of_site? ((mem_sortedSites_iff ..).mp hx).2
  have hsorted := pairwise_sortedSites source.toList name root
  rw [scan_eq_map_snd]
  refine ⟨(root.sortedSites source.toList name).map Prod.fst, fun address o => ?_, ?_, ?_, ?_,
    fun hnested => ?_⟩
  · rw [List.mem_map, ← Occurrence.isSome_site?_iff]
    constructor
    · rintro ⟨x, hx, hfst⟩
      obtain ⟨hlocate, hsite⟩ := (mem_sortedSites_iff ..).mp hx
      rw [hfst] at hlocate hsite
      exact ⟨hlocate, x.2, hsite⟩
    · rintro ⟨hlocate, s, hsite⟩
      exact ⟨((address, o), s), (mem_sortedSites_iff ..).mpr ⟨hlocate, hsite⟩, rfl⟩
  · rw [List.forall₂_map_left_iff, List.forall₂_map_right_iff, List.forall₂_same]
    exact hof
  · rw [List.pairwise_map]
    refine hsorted.imp_of_mem (fun {x y} hx hy h => ?_)
    rwa [(hof x hx).declaration, (hof y hy).declaration] at h
  · rw [List.pairwise_map]
    refine hsorted.imp_of_mem (fun {x y} hx hy h => ?_)
    rw [(hof x hx).line_eq, (hof y hy).line_eq]
    rw [(hof x hx).declaration, (hof y hy).declaration] at h
    exact lineNumber_mono source.toList (h.elim Nat.le_of_lt (fun h => Nat.le_of_eq h.1))
  · rw [List.pairwise_map, sortedSites_of_isNestedTree hnested]
    exact pairwise_lt_addressedSites source.toList name root

/-- The annotated class and its annotated member are found in pre-order. -/
theorem scan_sites_nestedTree :
    nestedTree.IsNestedTree
      ∧ ∃ entries : List (List Nat × Occurrence),
        List.Forall₂ (fun e s => s.IsOf nestedSource.toList "V" e.2) entries
            (nestedTree.scan nestedSource "V")
          ∧ entries.Pairwise (fun d e => d.1 < e.1) := by
  have hnested : nestedTree.IsNestedTree :=
    (show nestedTree.IsTreeOver nestedSource.toList by decide +kernel).isNestedTree
  obtain ⟨entries, -, hsites, -, -, horder⟩ := scan_sites nestedSource "V" nestedTree
  exact ⟨hnested, entries, hsites, horder hnested⟩

end Node

end TestAccess
