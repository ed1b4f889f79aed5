import TestAccess.Proofs.PointwiseSplice
import TestAccess.Proofs.SiteEdits

/-!
# Stripping takes out one annotation of a declaration

A declaration may carry its annotation more than once. All of its attributes
of that name are left behind by a request, but a site knows one range only,
that of the first of them, and this is the only one that is taken out when the
accessors are spliced in. Of the others not a byte is lost
(`strips_first_marker_only`). So a declaration is free of its annotation
behind the splice exactly when it had a single one.

That nothing else is taken out of a declaration has two reasons. Its
attributes lie one behind the other, and begin with a character that is not
blank, so that the blanks that go with the annotation end in front of them.
And the annotation of another declaration is separate from them, whether that
declaration stands beside this one, around it or in it.
-/

namespace TestAccess

/-! ## What is taken out of a source -/

namespace FileReport

/-- The edits of a report when annotations are taken out. -/
def strippingEdits (r : FileReport) : List Edit :=
  spliceEdits r.source.toList (r.sites.map fun s => s.insertion true)

/-- **A range is stripped** when it lies in a range that is taken out. -/
def Strips (r : FileReport) (range : ByteRange) : Prop :=
  ∃ e ∈ r.strippingEdits, e.replacement = [] ∧ range.Within e.range

/-- **A range is kept** when no byte of it is taken out. -/
def Keeps (r : FileReport) (range : ByteRange) : Prop :=
  ∀ e ∈ r.strippingEdits, ∀ p, range.start ≤ p → p < range.stop → e.covers p = false

/-- A range that is not empty cannot be both kept and stripped. -/
theorem Keeps.not_strips {r : FileReport} {range : ByteRange} (h : r.Keeps range)
    (hlt : range.start < range.stop) : ¬ r.Strips range := by
  rintro ⟨e, he, -, hwithin⟩
  have hcovers : e.covers range.start = true :=
    (Edit.covers_iff ..).mpr ⟨hwithin.1, Nat.lt_of_lt_of_le hlt hwithin.2⟩
  rw [h e he range.start (Nat.le_refl _) hlt] at hcovers
  exact absurd hcovers Bool.false_ne_true

variable {c : Config} {path source name : String} {root : Node}

/-- The edits of a report on a scan are those of the sites of the tree. -/
theorem mem_strippingEdits_iff (e : Edit) :
    e ∈ (ofSites c path source (root.scan source name)).strippingEdits ↔
      ∃ o ∈ root.walk, ∃ s, o.site? source.toList name = some s
        ∧ e ∈ ((SiteReport.ofSite c s).insertion true).edits source.toList := by
  unfold strippingEdits spliceEdits ofSites
  rw [List.map_map, List.flatMap_map, List.mem_flatMap]
  constructor
  · rintro ⟨s, hs, he⟩
    obtain ⟨o, ho, hsite⟩ := (Node.mem_scan_iff ..).mp hs
    exact ⟨o, ho, s, hsite, he⟩
  · rintro ⟨o, ho, s, hsite, he⟩
    exact ⟨s, (Node.mem_scan_iff ..).mpr ⟨o, ho, hsite⟩, he⟩

/-- **The annotation that a site knows of is stripped.** -/
theorem strips_marker {o : Node.Occurrence} (ho : o ∈ root.walk)
    (hdecl : o.node.isDeclaration = true) {a : Node}
    (ha : o.node.marker? source.toList name = some a) :
    (ofSites c path source (root.scan source name)).Strips a.range := by
  have hsite := (Node.Occurrence.site?_eq_some_iff ..).mpr ⟨hdecl, a, ha, rfl⟩
  refine ⟨{ range := Insertion.removal source.toList a.range, replacement := [] },
    (mem_strippingEdits_iff _).mpr ⟨o, ho, _, hsite, ?_⟩, rfl, Nat.le_refl _, Nat.le_add_right ..⟩
  exact (Insertion.mem_edits_iff ..).mpr (Or.inl ⟨a.range, rfl, rfl⟩)

/-- **What is separate from all annotations is kept**, if it does not begin
with a blank. -/
theorem keeps_of_separate {range : ByteRange} {ch : Char}
    (hopens : Chars.BeginsAt source.toList range.start ch) (hblank : isBlank ch = false)
    (hsep : ∀ o ∈ root.walk, ∀ s, o.site? source.toList name = some s →
      s.marker.IsProper source.toList ∧ s.marker.Separate range) :
    (ofSites c path source (root.scan source name)).Keeps range := by
  intro e he p hle hlt
  obtain ⟨o, ho, s, hs, he⟩ := (mem_strippingEdits_iff e).mp he
  obtain ⟨hproper, hmarker⟩ := hsep o ho s hs
  rw [← Bool.not_eq_true, Edit.covers_iff]
  rintro ⟨hstart, hstop⟩
  rcases (SiteReport.isFor_insertion_ofSite c s true).range_of_mem_edits he with h | h
  · rw [h] at hstart hstop
    rcases hmarker with hmarker | hmarker
    · -- the blanks behind the annotation end where the range begins
      have hend := Insertion.removal_stop_le hproper.isBoundary_stop hopens hblank hmarker
      exact absurd hle (Nat.not_le_of_lt (Nat.lt_of_lt_of_le hstop hend))
    · exact absurd hlt (Nat.not_lt_of_le (Nat.le_trans hmarker hstart))
  · rw [h] at hstart hstop
    exact absurd hstart (Nat.not_le_of_lt hstop)

end FileReport

/-! ## Where attributes lie -/

namespace Node

variable {source : List Char} {name : String} {root : Node}

/-- The attributes of a declaration that have the name of the annotation. -/
def markers (source : List Char) (name : String) (n : Node) : List Node :=
  n.attributes.filter (isAttributeNamed source name)

/-- The annotation that a site knows of is the first of them. -/
theorem head?_markers (source : List Char) (name : String) (n : Node) :
    (n.markers source name).head? = n.marker? source name :=
  List.head?_filter ..

/-- What a part contributes to the attributes lies in the part. -/
theorem within_of_mem_attributesOfPart {part a : Node} (h : part.IsPlaced source)
    (ha : a ∈ part.attributesOfPart) : a.range.Within part.range := by
  unfold attributesOfPart at ha
  split at ha
  · rw [List.mem_singleton.mp ha]
    exact ⟨Nat.le_refl _, Nat.le_refl _⟩
  · split at ha
    · exact h.within a (List.mem_filter.mp ha).1
    · exact absurd ha (List.not_mem_nil)

/-- **The attributes of a node lie one behind the other.** -/
theorem pairwise_attributes {n : Node} (h : n.IsPlaced source)
    (hparts : ∀ part ∈ n.children, part.IsPlaced source) :
    n.attributes.Pairwise (fun a b => a.range.stop ≤ b.range.start) := by
  unfold attributes
  rw [List.pairwise_flatMap]
  constructor
  · intro part hpart
    unfold attributesOfPart
    split
    · exact List.pairwise_singleton ..
    · split
      · exact (hparts part hpart).inOrder.filter _
      · exact List.Pairwise.nil
  · refine h.inOrder.imp_of_mem (fun {part part'} hpart hpart' hle a ha b hb => ?_)
    have hin := within_of_mem_attributesOfPart (hparts part hpart) ha
    have hin' := within_of_mem_attributesOfPart (hparts part' hpart') hb
    exact Nat.le_trans hin.2 (Nat.le_trans hle hin'.1)

/-- The attributes of a node of a tree over a source lie one behind the
other. -/
theorem IsTreeOver.pairwise_attributes (h : root.IsTreeOver source) {o : Occurrence}
    (ho : o ∈ root.walk) :
    o.node.attributes.Pairwise (fun a b => a.range.stop ≤ b.range.start) :=
  Node.pairwise_attributes (h o ho) fun part hpart =>
    h.isPlaced_below ho
      (mem_occurrences_of_part hpart (self_mem_occurrences (o.node :: o.ancestors) part))

/-- No attribute of a node is listed twice. -/
theorem IsTreeOver.nodup_attributes (h : root.IsTreeOver source) {o : Occurrence}
    (ho : o ∈ root.walk) : o.node.attributes.Nodup := by
  refine (h.pairwise_attributes ho).imp_of_mem (fun {a b} ha _ hle hab => ?_)
  obtain ⟨-, hlt⟩ := h.attribute_opens ho ha
  rw [← hab] at hle
  exact absurd hlt (Nat.not_lt_of_le hle)

/-- The attributes of two declarations are separate when one declaration comes
before the other in the walk. -/
theorem separate_attributes_of_before (h : root.IsTreeOver source)
    (hattr : root.HasNoDeclarationInAttribute) {o o' : Occurrence} (ho : o ∈ root.walk)
    (ho' : o' ∈ root.walk) (hdecl' : o'.node.isDeclaration = true) (hbefore : o.Before o')
    {a b : Node} (ha : a ∈ o.node.attributes) (hb : b ∈ o'.node.attributes) :
    a.range.Separate b.range := by
  obtain ⟨-, hina⟩ := h.isPlaced_attribute ho ha
  obtain ⟨-, hinb⟩ := h.isPlaced_attribute ho' hb
  rcases hbefore with hle | ⟨part, hpart, hbelow⟩
  · exact Or.inl (Nat.le_trans hina.2 (Nat.le_trans hle hinb.1))
  · have hsep : a.range.Separate o'.node.range :=
      separate_of_mem_attributes (fun o₁ h₁ => h.isPlaced_below ho h₁) ha hpart hbelow hdecl'
        (hattr o' ho' hdecl')
    exact hsep.mono ⟨Nat.le_refl _, Nat.le_refl _⟩ hinb

/-- **The attributes of two declarations of a tree are separate.** -/
theorem separate_attributes_of_ne (h : root.IsTreeOver source)
    (hattr : root.HasNoDeclarationInAttribute) {o o' : Occurrence} (ho : o ∈ root.walk)
    (ho' : o' ∈ root.walk) (hdecl : o.node.isDeclaration = true)
    (hdecl' : o'.node.isDeclaration = true) (hne : o ≠ o') {a b : Node}
    (ha : a ∈ o.node.attributes) (hb : b ∈ o'.node.attributes) : a.range.Separate b.range := by
  have _ : Std.Symm (fun o o' : Occurrence => o.Before o' ∨ o'.Before o) :=
    ⟨fun _ _ h => Or.symm h⟩
  have hwalk : root.walk.Pairwise (fun o o' => o.Before o' ∨ o'.Before o) :=
    (pairwise_before_walk h).imp (fun hbefore => Or.inl hbefore)
  rcases hwalk.forall ho ho' hne with hbefore | hbefore
  · exact separate_attributes_of_before h hattr ho ho' hdecl' hbefore ha hb
  · exact (separate_attributes_of_before h hattr ho' ho hdecl hbefore hb ha).symm

end Node

/-! ## Reports -/

namespace FileReport

variable {source name : String} {root : Node} {o : Node.Occurrence}

/-- **An attribute that is not the annotation of a site is kept**, whatever
its name. -/
theorem keeps_of_mem_attributes (c : Config) (path : String)
    (htree : root.IsTreeOver source.toList) (hattr : root.HasNoDeclarationInAttribute)
    (ho : o ∈ root.walk) (hdecl : o.node.isDeclaration = true) {b : Node}
    (hb : b ∈ o.node.attributes) (hne : o.node.marker? source.toList name ≠ some b) :
    (ofSites c path source (root.scan source name)).Keeps b.range := by
  obtain ⟨⟨ch, hopens, hblank⟩, -⟩ := htree.attribute_opens ho hb
  refine keeps_of_separate hopens hblank (fun o' ho' s hs => ?_)
  obtain ⟨hdecl', a, ha, rfl⟩ := (Node.Occurrence.site?_eq_some_iff ..).mp hs
  have hmem := Node.mem_attributes_of_marker? ha
  refine ⟨(htree.isPlaced_attribute ho' hmem).1.isProper, ?_⟩
  by_cases hsame : o' = o
  · -- of one declaration, the annotation is another attribute
    subst hsame
    refine Node.separate_of_pairwise (htree.pairwise_attributes ho) hmem hb (fun hab => hne ?_)
    rw [ha, hab]
  · exact Node.separate_attributes_of_ne htree hattr ho' ho hdecl' hdecl hsame hmem hb

/-- **All annotations of a declaration are stripped exactly when it has at
most one.** -/
theorem forall_strips_markers_iff (c : Config) (path : String)
    (htree : root.IsTreeOver source.toList) (hattr : root.HasNoDeclarationInAttribute)
    (ho : o ∈ root.walk) (hdecl : o.node.isDeclaration = true) :
    (∀ a ∈ o.node.markers source.toList name,
        (ofSites c path source (root.scan source name)).Strips a.range)
      ↔ (o.node.markers source.toList name).length ≤ 1 := by
  have hhead := Node.head?_markers source.toList name o.node
  have hsub : (o.node.markers source.toList name).Sublist o.node.attributes :=
    List.filter_sublist
  have hnodup := (htree.nodup_attributes ho).sublist hsub
  cases hmarkers : o.node.markers source.toList name with
  | nil => exact ⟨fun _ => Nat.zero_le 1, fun _ a ha => absurd ha (List.not_mem_nil)⟩
  | cons a rest =>
    rw [hmarkers] at hhead hsub hnodup
    cases rest with
    | nil =>
      refine ⟨fun _ => Nat.le_refl 1, fun _ b hb => ?_⟩
      rw [List.mem_singleton.mp hb]
      exact strips_marker ho hdecl hhead.symm
    | cons b rest =>
      -- the second annotation is kept
      have hb : b ∈ a :: b :: rest := List.mem_cons_of_mem _ (List.mem_cons_self ..)
      have hmem : b ∈ o.node.attributes := hsub.subset hb
      have hab : a ≠ b := List.rel_of_pairwise_cons hnodup (List.mem_cons_self ..)
      have hkept := keeps_of_mem_attributes c path htree hattr ho hdecl hmem
        (fun h => hab (Option.some.inj (hhead.trans h)))
      obtain ⟨-, hlt⟩ := htree.attribute_opens ho hmem
      constructor
      · exact fun hall => absurd (hall b hb) (hkept.not_strips hlt)
      · exact fun hlength => absurd hlength (by simp)

/-- **Stripping takes out the first annotation of a declaration and no other
attribute.** The annotation that comes first is stripped; every other
attribute is kept, those with the name of the annotation among them. So all
annotations of a declaration are stripped exactly when it has at most one. -/
theorem strips_first_marker_only (c : Config) (path source name : String) (root : Node)
    (o : Node.Occurrence) (ho : o.IsIn root) (hdecl : o.node.isDeclaration = true) :
    (∀ a ∈ o.node.marker? source.toList name,
        (ofSites c path source (root.scan source name)).Strips a.range)
      ∧ (root.IsTreeOver source.toList → root.HasNoDeclarationInAttribute →
        (∀ b ∈ o.node.attributes, o.node.marker? source.toList name ≠ some b →
            (ofSites c path source (root.scan source name)).Keeps b.range)
          ∧ ((∀ a ∈ o.node.markers source.toList name,
                (ofSites c path source (root.scan source name)).Strips a.range)
              ↔ (o.node.markers source.toList name).length ≤ 1)) := by
  have hwalk := (Node.mem_walk_iff ..).mpr ho
  refine ⟨fun a ha => strips_marker hwalk hdecl ha, fun htree hattr => ⟨?_, ?_⟩⟩
  · exact fun b hb hne => keeps_of_mem_attributes c path htree hattr hwalk hdecl hb hne
  · exact forall_strips_markers_iff c path htree hattr hwalk hdecl

/-- A property that carries its annotation twice. -/
def repeatedSource : String := "@V @V let x: Int"

/-- The second annotation of the property. -/
def secondMarker : Node := .mk "attribute" ⟨3, 5⟩ true [] []

/-- The tree of the property. -/
def repeatedTree : Node :=
  .mk "property_declaration" ⟨0, 16⟩ true []
    [.mk "modifiers" ⟨0, 5⟩ true []
        [.mk "attribute" ⟨0, 2⟩ true [] [], secondMarker],
      .mk "value_binding_pattern" ⟨6, 9⟩ true [] [],
      .mk "pattern" ⟨10, 11⟩ true ["name"] [],
      .mk "type_annotation" ⟨11, 16⟩ true [] []]

/-- Of the two annotations of the property, not all are stripped. -/
theorem strips_first_marker_only_repeatedTree :
    (⟨repeatedTree, []⟩ : Node.Occurrence).IsIn repeatedTree
      ∧ (repeatedTree.markers repeatedSource.toList "V").length = 2
      ∧ ¬ ∀ a ∈ repeatedTree.markers repeatedSource.toList "V",
          (ofSites {} "X.swift" repeatedSource
            (repeatedTree.scan repeatedSource "V")).Strips a.range := by
  have hin : (⟨repeatedTree, []⟩ : Node.Occurrence).IsIn repeatedTree :=
    (Node.mem_walk_iff ..).mp (Node.self_mem_occurrences ..)
  have hlength : (repeatedTree.markers repeatedSource.toList "V").length = 2 := by
    decide +kernel
  obtain ⟨-, hrest⟩ := strips_first_marker_only {} "X.swift" repeatedSource "V" repeatedTree
    ⟨repeatedTree, []⟩ hin (by decide +kernel)
  obtain ⟨-, hiff⟩ := hrest (by decide +kernel) (by decide +kernel)
  refine ⟨hin, hlength, fun hall => ?_⟩
  have hle := hiff.mp hall
  rw [hlength] at hle
  exact absurd hle (by decide)

/-- What the splice makes of the property. -/
def strippedSource : String :=
  "@V let x: Int\n\npublic var __test_x: Int \x7b\n    get \x7b\n        self.x\n    \x7d\n\x7d"

/-- The tree of what the splice makes of it. -/
def strippedTree : Node :=
  .mk "source_file" ⟨0, 74⟩ true []
    [.mk "property_declaration" ⟨0, 13⟩ true []
        [.mk "modifiers" ⟨0, 2⟩ true [] [.mk "attribute" ⟨0, 2⟩ true [] []],
          .mk "value_binding_pattern" ⟨3, 6⟩ true [] [],
          .mk "pattern" ⟨7, 8⟩ true ["name"] [],
          .mk "type_annotation" ⟨8, 13⟩ true [] []],
      .mk "property_declaration" ⟨15, 74⟩ true []
        [.mk "modifiers" ⟨15, 21⟩ true [] [.mk "visibility_modifier" ⟨15, 21⟩ true [] []],
          .mk "value_binding_pattern" ⟨22, 25⟩ true [] [],
          .mk "pattern" ⟨26, 34⟩ true ["name"] [],
          .mk "type_annotation" ⟨34, 39⟩ true [] [],
          .mk "computed_property" ⟨40, 74⟩ true ["computed_value"] []]]

/-- **A declaration with a second annotation is expanded again.** The second
annotation of the property has the name and is not stripped; it is left in
front of the property by the splice, and a scan of the output finds the
property once more. -/
theorem repeatedTree_expands_again :
    (∃ a ∈ repeatedTree.attributes, attributeName (a.text repeatedSource.toList) = "V"
        ∧ ¬ (ofSites {} "X.swift" repeatedSource
            (repeatedTree.scan repeatedSource "V")).Strips a.range)
      ∧ (ofSites {} "X.swift" repeatedSource
          (repeatedTree.scan repeatedSource "V")).spliced true = .ok strippedSource
      ∧ strippedTree.IsTreeOver strippedSource.toList
      ∧ ((strippedTree.scan strippedSource "V").map fun s => s.declaration) = [⟨0, 13⟩] := by
  have htree : repeatedTree.IsTreeOver repeatedSource.toList := by decide +kernel
  have hmem : secondMarker ∈ repeatedTree.attributes :=
    List.mem_cons_of_mem _ (List.mem_cons_self ..)
  have hfirst : (repeatedTree.marker? repeatedSource.toList "V").map Node.range = some ⟨0, 2⟩ := by
    decide +kernel
  have hkept : (ofSites {} "X.swift" repeatedSource
      (repeatedTree.scan repeatedSource "V")).Keeps secondMarker.range := by
    refine keeps_of_mem_attributes {} "X.swift" htree (by decide +kernel)
      (Node.self_mem_occurrences [] repeatedTree) (by decide +kernel) hmem (fun h => ?_)
    rw [show repeatedTree.marker? repeatedSource.toList "V" = some secondMarker from h] at hfirst
    exact absurd hfirst (by decide)
  refine ⟨⟨secondMarker, hmem, by decide +kernel, hkept.not_strips (by decide)⟩, ?_,
    by decide +kernel, ?_⟩
  · rw [spliced, splice_eq_ok_iff, Node.scan, List.mergeSort_of_pairwise (by decide +kernel),
      List.mergeSort_of_pairwise (by decide +kernel)]
    exact ⟨by decide +kernel, by decide +kernel⟩
  · rw [Node.scan, List.mergeSort_of_pairwise (by decide +kernel)]
    decide +kernel

end FileReport

end TestAccess
