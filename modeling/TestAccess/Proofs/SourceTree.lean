import TestAccess.Proofs.ExpandedFile
import TestAccess.Proofs.PartRanges
import TestAccess.Proofs.SiteEdits

/-!
# The tree of a source

What is proved of trees is proved of trees over a source: their nodes cover
stretches of it, the parts of a node stand in it one behind the other, and an
attribute begins with a character one can see. The program trusts its parser
with that. `parse_isTreeOver` says that the trust is well placed: the outline of
any source whatever – brackets that are never closed, words in no order – is a
tree over that source.

The proof follows the walk of the outline. Pieces are laid and the parts of a
declaration are placed; what remains is that a node over a part whose inside is
in order is a tree (`isTreeOver_mk`), and that the nodes of each region stand in
order where the pieces of the region are laid (`outline_growsForests`).

At the end stands what the program owes to this. As long as annotations are
kept, nothing is taken out of a source, and what is put in goes behind nodes of
the tree. So no source makes the splice fail (`FileReport.exists_spliced_of_kept`),
and an expansion of a file that can be read comes to a result
(`Command.exit_expand_of_kept`).
-/

namespace TestAccess

namespace Node

/-- The nodes that occur below a node do not depend on its ancestors. -/
theorem forall_mem_occurrences {P : Node → Prop} {n : Node} {ancestors : List Node}
    (h : ∀ o ∈ occurrences ancestors n, P o.node) (others : List Node) :
    ∀ o ∈ occurrences others n, P o.node := by
  induction n using induction_on generalizing ancestors others with
  | step n ih =>
    intro o ho
    rcases (mem_occurrences_iff others n o).mp ho with rfl | ⟨c, hc, ho⟩
    · exact h ⟨n, ancestors⟩ (self_mem_occurrences ..)
    · exact ih c hc (fun o' ho' => h o' (mem_occurrences_of_part hc ho')) _ o ho

/-- The root of a tree is placed. -/
theorem IsTreeOver.isPlaced {source : List Char} {n : Node} (h : n.IsTreeOver source) :
    n.IsPlaced source :=
  h ⟨n, []⟩ (self_mem_occurrences ..)

/-- **A node over trees** is a tree if it is placed itself. -/
theorem isTreeOver_of_children {source : List Char} {n : Node} (hn : n.IsPlaced source)
    (h : ∀ c ∈ n.children, c.IsTreeOver source) : n.IsTreeOver source := by
  intro o ho
  rcases (mem_occurrences_iff [] n o).mp ho with rfl | ⟨c, hc, ho⟩
  · exact hn
  · exact forall_mem_occurrences (h c hc) _ o ho

end Node

namespace Source

open Chars

variable {source : List Char} {lo hi : Nat}

/-- **A forest between two offsets** of a source: trees over it, one behind the
other. -/
structure Forest (source : List Char) (lo hi : Nat) (ns : List Node) : Prop where
  inOrder : Ordered Node.range lo hi ns
  trees : ∀ n ∈ ns, n.IsTreeOver source

namespace Forest

variable {n : Node} {ns ms : List Node}

theorem nil (h : lo ≤ hi) : Forest source lo hi [] :=
  ⟨h, fun _ h => absurd h (List.not_mem_nil)⟩

theorem append {mid : Nat} (h : Forest source lo mid ns) (h' : Forest source mid hi ms) :
    Forest source lo hi (ns ++ ms) :=
  ⟨h.inOrder.append h'.inOrder, List.forall_mem_append.mpr ⟨h.trees, h'.trees⟩⟩

theorem mono {lo' hi' : Nat} (h : Forest source lo hi ns) (hlo : lo' ≤ lo) (hhi : hi ≤ hi') :
    Forest source lo' hi' ns :=
  ⟨h.inOrder.mono hlo hhi, h.trees⟩

/-- A tree by itself. -/
theorem singleton (h : n.IsTreeOver source) (hlo : lo ≤ n.range.start) :
    Forest source lo n.range.stop [n] := by
  exact ⟨⟨hlo, h.isPlaced.isProper.start_le_stop, Nat.le_refl _⟩,
    fun _ hm => List.mem_singleton.mp hm ▸ h⟩

end Forest

/-- **A node over a forest** is a tree over the source, if its range is proper
and it begins as its kind asks. -/
theorem isTreeOver_mk {kind : String} {range : ByteRange} {named : Bool} {fields : List String}
    {children : List Node} (hproper : range.IsProper source)
    (hopens : kind = "attribute" →
      (∃ c, BeginsAt source range.start c ∧ isBlank c = false) ∧ range.start < range.stop)
    (h : Forest source range.start range.stop children) :
    (Node.mk kind range named fields children).IsTreeOver source := by
  refine Node.isTreeOver_of_children ⟨hproper, ?_, ?_, ?_⟩ h.trees
  · exact fun c hc => h.inOrder.within hc
  · exact h.inOrder.pairwise
  · intro hkind
    obtain ⟨⟨c, hc, hblank⟩, hlt⟩ := hopens hkind
    exact ⟨c, head?_slice_of_beginsAt hc hlt, hblank⟩

/-! ## Nodes of a declaration -/

/-- What is inside a part **grows forests** over a source if it makes a forest
of pieces wherever they are laid. -/
def GrowsForests (source : List Char) (inside : Region → List Piece → List Node) : Prop :=
  ∀ ⦃lo hi ps⦄ (region : Region), Laid source lo hi ps → Forest source lo hi (inside region ps)

theorem PartsPlaced.forest {parts : List Part} (h : PartsPlaced source lo hi parts)
    {inside : Region → List Piece → List Node} (hinside : GrowsForests source inside) :
    Forest source lo hi (parts.map (Part.node inside)) := by
  refine ⟨Ordered.map_iff.mpr h.inOrder, fun n hn => ?_⟩
  obtain ⟨part, hpart, rfl⟩ := List.mem_map.mp hn
  have hplaced := h.placed part hpart
  exact isTreeOver_mk hplaced.proper hplaced.opens (hinside part.region hplaced.laid)

/-- The nodes of the modifiers, by themselves or in a list of their own. -/
theorem modifierNodes_forest (ground : Ground) {modifiers : List Node}
    (h : Forest source lo hi modifiers) : Forest source lo hi (modifierNodes ground modifiers) := by
  fun_cases modifierNodes ground modifiers with
  | case1 => exact h
  | case2 => exact h
  | case3 ground m ms =>
    have hspan := h.inOrder.span
    have hlast := Ordered.last_mem m ms
    have hproper : ByteRange.IsProper source ⟨m.range.start, (ms.getLast?.getD m).range.stop⟩ :=
      ⟨hspan.le, (h.trees m (List.mem_cons_self ..)).isPlaced.isProper.isBoundary_start,
        (h.trees _ hlast).isPlaced.isProper.isBoundary_stop⟩
    exact (Forest.singleton (isTreeOver_mk hproper (fun hk => absurd hk (by simp))
      ⟨hspan, h.trees⟩) h.inOrder.1).mono (Nat.le_refl _) (h.inOrder.within hlast).2

/-- **The node of a declaration** reaches from its modifiers to its last
part. -/
theorem DeclarationParts.IsPlaced.forest {d : DeclarationParts} (h : d.IsPlaced source lo hi)
    (ground : Ground) {inside : Region → List Piece → List Node}
    (hinside : GrowsForests source inside) : Forest source lo hi [d.node ground inside] := by
  obtain ⟨mid, hmodifiers, hparts⟩ := h.parts
  obtain ⟨part, parts, heq⟩ := List.exists_cons_of_ne_nil h.parts_ne
  rw [heq] at hparts
  have hlast := Ordered.last_mem part parts
  have hstop : (d.parts.getLast?.map fun part => part.range.stop).getD d.start
      = (parts.getLast?.getD part).range.stop := by
    rw [heq, List.getLast?_cons, Option.map_some, Option.getD_some]
  have hparts' : PartsPlaced source mid (parts.getLast?.getD part).range.stop (part :: parts) :=
    ⟨hparts.inOrder.span.mono hparts.inOrder.1 (Nat.le_refl _), hparts.placed⟩
  have hchildren := (modifierNodes_forest ground (hmodifiers.forest hinside)).append
    (hparts'.forest hinside)
  have hproper : ByteRange.IsProper source ⟨d.start, (parts.getLast?.getD part).range.stop⟩ :=
    ⟨h.start_eq ▸ hchildren.inOrder.le, h.isBoundary_start,
      (hparts.placed _ hlast).proper.isBoundary_stop⟩
  have htree : (d.node ground inside).IsTreeOver source := by
    unfold DeclarationParts.node
    rw [hstop, heq]
    refine isTreeOver_mk hproper (fun hk => absurd hk h.kind_ne) ?_
    rw [h.start_eq]
    exact hchildren
  refine (Forest.singleton htree (Nat.le_of_eq h.start_eq.symm)).mono (Nat.le_refl _) ?_
  show (d.parts.getLast?.map fun part => part.range.stop).getD d.start ≤ hi
  rw [hstop]
  exact (hparts.inOrder.within hlast).2

/-! ## The walk -/

/-- **The nodes of a region** are a forest where its pieces are laid. -/
theorem outline_growsForests (fuel : Nat) : GrowsForests source (outline fuel) := by
  induction fuel with
  | zero => exact fun _ _ _ _ h => .nil h.inOrder.le
  | succ fuel ih =>
    intro lo hi ps region h
    cases ps with
    | nil =>
      have hnil : outline (fuel + 1) region [] = [] := by cases region <;> rfl
      rw [hnil]
      exact .nil h.inOrder.le
    | cons p ps =>
      cases region with
      | closed => exact .nil h.inOrder.le
      | expression =>
        -- what is inside each piece is looked at by itself
        have hinside (q : Piece) (hq : q ∈ p :: ps) :=
          ih (.body .block) (h.placed q hq).laid_parts
        refine ⟨h.inOrder.flatMap (fun q hq => (hinside q hq).inOrder), fun n hn => ?_⟩
        obtain ⟨q, hq, hn⟩ := List.mem_flatMap.mp hn
        exact (hinside q hq).trees n hn
      | accessors =>
        rw [outline]
        split
        · exact (clauseParts_placed _ h).forest ih
        · exact ih _ h
        · exact fun h => nomatch h
      | body ground =>
        rw [outline]
        split
        · rename_i d rest hitem
          obtain ⟨mid, hd, hrest⟩ := takeItem_declaration h hitem
          exact ((hd.forest ground ih).append (ih _ hrest)).mono h.inOrder.1 (Nat.le_refl _)
        · rename_i taken rest hitem
          rw [← takeItem_other hitem] at h
          obtain ⟨mid, htaken, hrest⟩ := h.of_append
          exact (ih _ htaken).append (ih _ hrest)

/-- **The outline of a source is a tree over it.** -/
theorem parse_isTreeOver (source : String) : (parse source).IsTreeOver source.toList := by
  have hlaid := pieces_laid source.toList
  have hboundary : isBoundary (width source.toList) source.toList = true :=
    (isBoundary_iff ..).mpr ⟨source.toList, [], (List.append_nil _).symm, rfl⟩
  refine isTreeOver_mk ⟨hlaid.inOrder.le, ?_, hboundary⟩ (fun hk => absurd hk (by simp))
    (outline_growsForests _ _ hlaid)
  exact (isBoundary_iff ..).mpr ⟨[], source.toList, rfl, rfl⟩

end Source

/-! ## Sources that keep their annotations -/

/-- The declaration of a site covers a stretch of the source. -/
theorem Node.IsTreeOver.isProper_declaration {source name : String} {root : Node}
    (h : root.IsTreeOver source.toList) {s : Site} (hs : s ∈ root.scan source name) :
    s.declaration.IsProper source.toList := by
  obtain ⟨o, ho, hs⟩ := (mem_scan_iff ..).mp hs
  obtain ⟨-, a, -, rfl⟩ := (Occurrence.site?_eq_some_iff ..).mp hs
  exact (h o ho).isProper

/-- **A source that keeps its annotations can always be spliced**, whatever is
in it: edits that only put something in are never in each other's way. -/
theorem FileReport.exists_spliced_of_kept (c : Config) (path source name : String) :
    ∃ out, (FileReport.ofSites c path source
      ((Source.parse source).scan source name)).spliced false = .ok out := by
  have htree := Source.parse_isTreeOver source
  unfold FileReport.spliced FileReport.ofSites
  rw [List.map_map]
  refine (exists_splice_eq_ok_iff ..).mpr ⟨?_, List.pairwise_of_forall_mem_list ?_⟩
  · intro i hi r hr
    obtain ⟨s, hs, rfl⟩ := List.mem_map.mp hi
    obtain rfl := List.mem_singleton.mp hr
    exact htree.isProper_declaration hs
  · have hpoint : ∀ e ∈ spliceEdits source.toList (((Source.parse source).scan source name).map
        fun s => (SiteReport.ofSite c s).insertion false), e.range.start = e.range.stop := by
      intro e he
      obtain ⟨i, hi, he⟩ := List.mem_flatMap.mp he
      obtain ⟨s, -, rfl⟩ := List.mem_map.mp hi
      rcases (Insertion.mem_edits_iff ..).mp he with ⟨a, ha, -⟩ | ⟨-, rfl⟩
      · exact absurd ha (by simp [SiteReport.insertion])
      · rfl
    intro e he e' he'
    have hstart := hpoint e he
    have hstart' := hpoint e' he'
    unfold ByteRange.Separate
    omega

/-- **An expansion that keeps the annotations comes to a result** if the file
can be read. -/
theorem Command.exit_expand_of_kept {files : Files} {path : String}
    (h : IsReadable files path) {c : Config} (hkept : c.expansion.stripsMarker = false) :
    (Outcome.ofResult (expand Source.parse files c .text path)).exit ≠ 2 := by
  by_cases hnil : diagnosticText c path (sitesOf Source.parse files c path) = []
  · obtain ⟨hswift, source, hread⟩ := h
    obtain ⟨out, hout⟩ := FileReport.exists_spliced_of_kept c path source c.markerName
    have hreport : fileReport Source.parse files c path
        = FileReport.ofSites c path source ((Source.parse source).scan source c.markerName) := by
      unfold fileReport sourceOf sitesOf
      rw [hread]
    rw [expand_of_accepted Source.parse ⟨hswift, source, hread⟩ hnil, hkept, hreport, hout]
    show 0 ≠ 2
    decide
  · rw [expand_of_rejected Source.parse h hnil]
    show 1 ≠ 2
    decide

end TestAccess
