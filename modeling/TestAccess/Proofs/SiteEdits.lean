import TestAccess.Proofs.TreeShape
import TestAccess.Report

/-!
# The sites of a tree can always be spliced

Every site asks for two edits: its annotation is taken out together with the
blanks behind it, and a block is put behind its declaration. Declarations nest,
so the edits of one site may lie amid those of another, and a splice fails as
soon as two edits overlap. This module shows that they never do.

Two facts about a site carry the argument. Its edits lie in its declaration,
because the declaration goes on behind the annotation; and none of them begins
before its annotation does. Given two sites of a tree, either their
declarations follow one another, and then so do the edits; or one declaration
is below the other, and then it is separate from the annotation of the outer
one. If it comes first, so do its edits. If it comes behind, the blanks that
the outer removal takes out end at the inner annotation at the latest, since
that begins with a character that is not blank.

`exists_spliced_eq_ok` is the result for a whole report.
-/

namespace TestAccess

namespace Node

/-- **No declaration lies in an attribute.** -/
def HasNoDeclarationInAttribute (root : Node) : Prop :=
  ∀ o ∈ root.walk, o.node.isDeclaration = true → ∀ x ∈ o.ancestors, x.kind ≠ "attribute"

instance (root : Node) : Decidable root.HasNoDeclarationInAttribute :=
  inferInstanceAs (Decidable (∀ o ∈ root.walk, _ → ∀ x ∈ o.ancestors, x.kind ≠ "attribute"))

/-- **Every annotated declaration goes on behind its annotation**: between
the two ends there is a character that is not blank. -/
def GoesOnBehindMarkers (source : List Char) (name : String) (root : Node) : Prop :=
  ∀ o ∈ root.walk, o.node.isDeclaration = true → ∀ a ∈ o.node.marker? source name,
    ∃ c ∈ Chars.slice source a.range.stop o.node.range.stop, isBlank c = false

instance (source : List Char) (name : String) (root : Node) :
    Decidable (root.GoesOnBehindMarkers source name) :=
  decidable_of_iff
    (∀ o ∈ root.walk, o.node.isDeclaration = true → ∀ a ∈ o.node.marker? source name,
      (Chars.slice source a.range.stop o.node.range.stop).any (fun c => !isBlank c) = true)
    (by simp only [GoesOnBehindMarkers, List.any_eq_true, Bool.not_eq_true'])

end Node

/-! ## The edits of one site -/

/-- **A site is placed over a source.** -/
structure Site.IsPlaced (source : List Char) (s : Site) : Prop where
  declaration : s.declaration.IsProper source
  marker : s.marker.IsProper source
  within : s.marker.Within s.declaration
  /-- The annotation does not begin with a blank. -/
  opens : ∃ c, Chars.BeginsAt source s.marker.start c ∧ isBlank c = false
  /-- What is taken out for the annotation ends in the declaration. -/
  removal_stop_le : (Insertion.removal source s.marker).stop ≤ s.declaration.stop

/-- The sites of a tree over a source are placed over it. -/
theorem Site.isPlaced_of_mem_walk {source : List Char} {name : String} {root : Node}
    (htree : root.IsTreeOver source) (hnext : root.GoesOnBehindMarkers source name)
    {o : Node.Occurrence} (ho : o ∈ root.walk) {s : Site}
    (hs : o.site? source name = some s) : s.IsPlaced source := by
  obtain ⟨hdecl, a, ha, rfl⟩ := (Node.Occurrence.site?_eq_some_iff ..).mp hs
  have hmem := Node.mem_attributes_of_marker? ha
  obtain ⟨hplaced, hwithin⟩ := htree.isPlaced_attribute ho hmem
  refine ⟨(htree o ho).isProper, hplaced.isProper, hwithin, (htree.attribute_opens ho hmem).1, ?_⟩
  obtain ⟨c, hc, hblank⟩ := hnext o ho hdecl a ha
  obtain ⟨p, hp, hle, hlt⟩ :=
    (Chars.mem_slice_iff hplaced.isProper.isBoundary_stop _ c).mp hc
  exact Nat.le_trans
    (Insertion.removal_stop_le hplaced.isProper.isBoundary_stop hp hblank hle)
    (Nat.le_of_lt hlt)

/-- **An insertion is for a site** when it is about the site's declaration and
takes out no annotation but the site's. -/
structure Insertion.IsFor (s : Site) (i : Insertion) : Prop where
  declaration : i.declaration = s.declaration
  marker : ∀ a, i.marker = some a → a = s.marker

/-- What a report asks of a splice for a site is for that site. -/
theorem SiteReport.isFor_insertion_ofSite (c : Config) (s : Site) (stripsMarker : Bool) :
    ((SiteReport.ofSite c s).insertion stripsMarker).IsFor s := by
  refine ⟨rfl, fun a ha => ?_⟩
  unfold SiteReport.insertion at ha
  cases stripsMarker with
  | true => exact (Option.some.inj ha).symm
  | false => exact absurd ha (by simp)

namespace Insertion

variable {source : List Char} {s : Site} {i : Insertion}

/-- An insertion for a placed site has proper ranges. -/
theorem IsFor.isProper (hi : i.IsFor s) (hs : s.IsPlaced source) : i.IsProper source := by
  intro r hr
  rcases List.mem_cons.mp hr with rfl | hr
  · rw [hi.declaration]
    exact hs.declaration
  · rw [hi.marker r (Option.mem_toList.mp hr)]
    exact hs.marker

/-- The edits of an insertion for a site: the site's removal, or an empty
range behind its declaration. -/
theorem IsFor.range_of_mem_edits (hi : i.IsFor s) {e : Edit} (he : e ∈ i.edits source) :
    e.range = removal source s.marker
      ∨ e.range = ⟨s.declaration.stop, s.declaration.stop⟩ := by
  rcases (mem_edits_iff source i e).mp he with ⟨a, ha, rfl⟩ | ⟨-, rfl⟩
  · rw [hi.marker a ha]
    exact Or.inl rfl
  · rw [hi.declaration]
    exact Or.inr rfl

/-- **The edits for a site lie in its declaration.** -/
theorem IsFor.within (hi : i.IsFor s) (hs : s.IsPlaced source) {e : Edit}
    (he : e ∈ i.edits source) : e.range.Within s.declaration := by
  rcases hi.range_of_mem_edits he with h | h
  · rw [h]
    exact ⟨hs.within.1, hs.removal_stop_le⟩
  · rw [h]
    exact ⟨hs.declaration.start_le_stop, Nat.le_refl _⟩

/-- **No edit for a site begins before its annotation.** -/
theorem IsFor.marker_start_le (hi : i.IsFor s) (hs : s.IsPlaced source) {e : Edit}
    (he : e ∈ i.edits source) : s.marker.start ≤ e.range.start := by
  rcases hi.range_of_mem_edits he with h | h
  · rw [h]
    exact Nat.le_refl _
  · rw [h]
    exact Nat.le_trans hs.marker.start_le_stop hs.within.2

/-- The two edits for one site are separate. -/
theorem IsFor.pairwise_separate (hi : i.IsFor s) (hs : s.IsPlaced source) :
    (i.edits source).Pairwise (fun a b => a.range.Separate b.range) := by
  have hle : ∀ a, i.marker = some a → (removal source a).stop ≤ i.declaration.stop := by
    intro a ha
    rw [hi.marker a ha, hi.declaration]
    exact hs.removal_stop_le
  unfold edits
  cases hm : i.marker with
  | none =>
    rw [Option.toList_none, List.map_nil, List.nil_append]
    split
    · exact List.Pairwise.nil
    · exact List.pairwise_singleton ..
  | some a =>
    rw [Option.toList_some, List.map_singleton, List.singleton_append, List.pairwise_cons]
    constructor
    · intro e he
      split at he
      · exact absurd he (List.not_mem_nil)
      · rw [List.mem_singleton.mp he]
        exact Or.inl (hle a hm)
    · split
      · exact List.Pairwise.nil
      · exact List.pairwise_singleton ..

end Insertion

/-! ## The edits of two sites -/

section TwoSites

variable {source : List Char} {name : String} {root : Node}
variable {o o' : Node.Occurrence} {s s' : Site} {i i' : Insertion} {e e' : Edit}

/-- The edits of a site and those of a site below it are separate. -/
theorem separate_edits_of_below (htree : root.IsTreeOver source) (ho : o ∈ root.walk)
    (hs : o.site? source name = some s) (hs' : o'.site? source name = some s')
    (hplaced' : s'.IsPlaced source) (hplaced : s.IsPlaced source)
    (hout : ∀ x ∈ o'.ancestors, x.kind ≠ "attribute") {c : Node} (hc : c ∈ o.node.children)
    (hbelow : o' ∈ Node.occurrences (o.node :: o.ancestors) c) (hi : i.IsFor s)
    (hi' : i'.IsFor s') (he : e ∈ i.edits source) (he' : e' ∈ i'.edits source) :
    e.range.Separate e'.range := by
  have hin' : e'.range.Within s'.declaration := hi'.within hplaced' he'
  have hmarker' : s'.marker.start ≤ e'.range.start := hi'.marker_start_le hplaced' he'
  obtain ⟨-, a, ha, rfl⟩ := (Node.Occurrence.site?_eq_some_iff ..).mp hs
  obtain ⟨hdecl', a', -, rfl⟩ := (Node.Occurrence.site?_eq_some_iff ..).mp hs'
  have hbelowAll : ∀ o₁ ∈ Node.occurrences o.ancestors o.node, o₁.node.IsPlaced source :=
    fun o₁ h₁ => htree.isPlaced_below ho h₁
  rcases hi.range_of_mem_edits he with h | h
  · rw [h]
    rcases Node.separate_of_mem_attributes hbelowAll (Node.mem_attributes_of_marker? ha) hc
      hbelow hdecl' hout with hsep | hsep
    · -- the blanks behind the outer annotation end before the inner one
      obtain ⟨ch, hch, hblank⟩ := hplaced'.opens
      have hle : (Insertion.removal source a.range).stop ≤ a'.range.start :=
        Insertion.removal_stop_le hplaced.marker.isBoundary_stop hch hblank
          (Nat.le_trans hsep hplaced'.within.1)
      exact Or.inl (Nat.le_trans hle hmarker')
    · exact Or.inr (Nat.le_trans hin'.2 hsep)
  · rw [h]
    have hin : o'.node.range.Within o.node.range :=
      Node.within_of_mem_occurrences hbelowAll (Node.mem_occurrences_of_part hc hbelow)
    exact Or.inr (Nat.le_trans hin'.2 hin.2)

/-- **The edits of two sites are separate** when one site comes before the
other in the walk. -/
theorem separate_edits_of_before (htree : root.IsTreeOver source)
    (hattr : root.HasNoDeclarationInAttribute) (hnext : root.GoesOnBehindMarkers source name)
    (ho : o ∈ root.walk) (ho' : o' ∈ root.walk) (hbefore : o.Before o')
    (hs : o.site? source name = some s) (hs' : o'.site? source name = some s')
    (hi : i.IsFor s) (hi' : i'.IsFor s') (he : e ∈ i.edits source)
    (he' : e' ∈ i'.edits source) : e.range.Separate e'.range := by
  have hplaced := Site.isPlaced_of_mem_walk htree hnext ho hs
  have hplaced' := Site.isPlaced_of_mem_walk htree hnext ho' hs'
  rcases hbefore with hle | ⟨c, hc, hbelow⟩
  · have hsep : s.declaration.Separate s'.declaration := by
      obtain ⟨-, a, -, rfl⟩ := (Node.Occurrence.site?_eq_some_iff ..).mp hs
      obtain ⟨-, a', -, rfl⟩ := (Node.Occurrence.site?_eq_some_iff ..).mp hs'
      exact Or.inl hle
    exact hsep.mono (hi.within hplaced he) (hi'.within hplaced' he')
  · obtain ⟨hdecl', -⟩ := (Node.Occurrence.site?_eq_some_iff ..).mp hs'
    exact separate_edits_of_below htree ho hs hs' hplaced' hplaced (hattr o' ho' hdecl') hc
      hbelow hi hi' he he'

/-- **All edits of a scan are separate**, whatever is inserted for its
sites. -/
theorem pairwise_separate_scan {source : String} (htree : root.IsTreeOver source.toList)
    (hattr : root.HasNoDeclarationInAttribute)
    (hnext : root.GoesOnBehindMarkers source.toList name) (insertion : Site → Insertion)
    (hfor : ∀ s, (insertion s).IsFor s) :
    (spliceEdits source.toList ((root.scan source name).map insertion)).Pairwise
      (fun a b => a.range.Separate b.range) := by
  unfold spliceEdits
  rw [List.flatMap_map, List.pairwise_flatMap]
  constructor
  · intro s hs
    obtain ⟨o, ho, hs⟩ := (Node.mem_scan_iff ..).mp hs
    exact (hfor s).pairwise_separate (Site.isPlaced_of_mem_walk htree hnext ho hs)
  · -- the order of the sites does not matter, so that of the walk will do
    unfold Node.scan
    rw [(List.mergeSort_perm _ _).pairwise_iff
      (fun h e he e' he' => (h e' he' e he).symm), List.pairwise_filterMap]
    refine (Node.pairwise_before_walk htree).imp_of_mem ?_
    intro o o' ho ho' hbefore s hs s' hs' e he e' he'
    exact separate_edits_of_before htree hattr hnext ho ho' hbefore hs hs' (hfor s) (hfor s')
      he he'

end TwoSites

/-! ## Reports -/

/-- **A report on a tree can always be spliced.** The tree is one over the
source, no declaration lies in an attribute, and every annotated declaration
goes on behind its annotation; then the splice succeeds for every name of the
annotation and every configuration, whether the annotations are taken out or
not. -/
theorem FileReport.exists_spliced_eq_ok (c : Config) (path source name : String) (root : Node)
    (htree : root.IsTreeOver source.toList) (hattr : root.HasNoDeclarationInAttribute)
    (hnext : root.GoesOnBehindMarkers source.toList name) (stripsMarker : Bool) :
    ∃ out, (FileReport.ofSites c path source (root.scan source name)).spliced stripsMarker
      = .ok out := by
  unfold FileReport.spliced FileReport.ofSites
  rw [List.map_map]
  show ∃ out, splice source ((root.scan source name).map
    (fun s => (SiteReport.ofSite c s).insertion stripsMarker)) = .ok out
  refine (exists_splice_eq_ok_iff ..).mpr ⟨?_, ?_⟩
  · intro i hi
    obtain ⟨s, hs, rfl⟩ := List.mem_map.mp hi
    obtain ⟨o, ho, hs⟩ := (Node.mem_scan_iff ..).mp hs
    exact (SiteReport.isFor_insertion_ofSite c s stripsMarker).isProper
      (Site.isPlaced_of_mem_walk htree hnext ho hs)
  · exact pairwise_separate_scan htree hattr hnext _
      (fun s => SiteReport.isFor_insertion_ofSite c s stripsMarker)

/-- An annotated class with an annotated member. -/
def nestedSource : String := "@V class A \x7b @V var x: Int \x7d"

/-- The tree of the class and its member. -/
def nestedTree : Node :=
  .mk "class_declaration" ⟨0, 28⟩ true []
    [.mk "modifiers" ⟨0, 2⟩ true [] [.mk "attribute" ⟨0, 2⟩ true [] []],
      .mk "class" ⟨3, 8⟩ false ["declaration_kind"] [],
      .mk "type_identifier" ⟨9, 10⟩ true ["name"] [],
      .mk "class_body" ⟨11, 28⟩ true ["body"]
        [.mk "property_declaration" ⟨13, 26⟩ true []
          [.mk "modifiers" ⟨13, 15⟩ true [] [.mk "attribute" ⟨13, 15⟩ true [] []],
            .mk "value_binding_pattern" ⟨16, 19⟩ true [] [],
            .mk "pattern" ⟨20, 21⟩ true ["name"] [],
            .mk "type_annotation" ⟨21, 26⟩ true [] []]]]

/-- The annotated class and its annotated member can be spliced together. -/
theorem FileReport.exists_spliced_nestedTree :
    nestedTree.IsTreeOver nestedSource.toList
      ∧ nestedTree.HasNoDeclarationInAttribute
      ∧ nestedTree.GoesOnBehindMarkers nestedSource.toList "V"
      ∧ (nestedTree.scan nestedSource "V").length = 2
      ∧ ∀ stripsMarker, ∃ out,
          (FileReport.ofSites {} "A.swift" nestedSource (nestedTree.scan nestedSource "V")).spliced
            stripsMarker = .ok out :=
  ⟨by decide +kernel, by decide +kernel, by decide +kernel,
    by rw [Node.scan, List.length_mergeSort]; decide +kernel,
    FileReport.exists_spliced_eq_ok {} "A.swift" nestedSource "V" nestedTree
      (by decide +kernel) (by decide +kernel) (by decide +kernel)⟩

end TestAccess
