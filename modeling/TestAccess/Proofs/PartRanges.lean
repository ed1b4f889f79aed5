import TestAccess.Proofs.PieceRanges
import TestAccess.Proofs.TakenRuns

/-!
# Where the parts of a declaration stand

A declaration is read off its pieces by a row of readers, each of which takes
some parts from the front and hands on the pieces that are left. What has to be
known of a reader is that its parts stand in front of these pieces, in order,
and that each of them covers what it was made of: `Reads` says so of what has
been read, and it composes (`Reads.andThen`).

Most readers take a run, and a run that splits the pieces gives a part that
stands (`reads_run`). The other readers are put together from these, and the
keywords choose among rows of readers (`readKeyword?_placed`). What the outline
needs to know of an item is that it is a declaration which stands in front of
what is left (`takeItem_declaration`), or is made of the pieces there
(`takeItem_other`).
-/

namespace TestAccess.Source

open Chars

variable {source : List Char} {lo hi : Nat}

/-! ## Parts -/

/-- **A part is placed over a source**: it covers a stretch of it, in which its
pieces stand; and an attribute begins with a character one can see. -/
structure Part.IsPlaced (source : List Char) (part : Part) : Prop where
  proper : part.range.IsProper source
  opens : part.kind = "attribute" →
    (∃ c, BeginsAt source part.range.start c ∧ isBlank c = false)
      ∧ part.range.start < part.range.stop
  laid : Laid source part.range.start part.range.stop part.pieces

/-- **Parts placed between two offsets** of a source, one behind the other. -/
structure PartsPlaced (source : List Char) (lo hi : Nat) (parts : List Part) : Prop where
  inOrder : Ordered Part.range lo hi parts
  placed : ∀ part ∈ parts, part.IsPlaced source

namespace PartsPlaced

variable {part : Part} {parts others : List Part}

theorem nil (h : lo ≤ hi) : PartsPlaced source lo hi [] :=
  ⟨h, fun _ h => absurd h (List.not_mem_nil)⟩

theorem cons (hlo : lo ≤ part.range.start) (hpart : part.IsPlaced source)
    (h : PartsPlaced source part.range.stop hi parts) :
    PartsPlaced source lo hi (part :: parts) :=
  ⟨⟨hlo, hpart.proper.start_le_stop, h.inOrder⟩, List.forall_mem_cons.mpr ⟨hpart, h.placed⟩⟩

theorem append {mid : Nat} (h : PartsPlaced source lo mid parts)
    (h' : PartsPlaced source mid hi others) : PartsPlaced source lo hi (parts ++ others) :=
  ⟨h.inOrder.append h'.inOrder, List.forall_mem_append.mpr ⟨h.placed, h'.placed⟩⟩

theorem mono {lo' hi' : Nat} (h : PartsPlaced source lo hi parts) (hlo : lo' ≤ lo)
    (hhi : hi ≤ hi') : PartsPlaced source lo' hi' parts :=
  ⟨h.inOrder.mono hlo hhi, h.placed⟩

end PartsPlaced

/-- **What has been read between two offsets**: the parts stand there in front of
the pieces that are left. -/
def Reads (source : List Char) (lo hi : Nat) (r : Reading) : Prop :=
  ∃ mid, PartsPlaced source lo mid r.1 ∧ Laid source mid hi r.2

namespace Reads

variable {parts others : List Part} {ps rest rest' : List Piece}

theorem nil (h : Laid source lo hi ps) : Reads source lo hi ([], ps) :=
  ⟨lo, PartsPlaced.nil (Nat.le_refl lo), h⟩

/-- **Readings compose**: what is read of the pieces that are left comes
behind. -/
theorem andThen (h : Reads source lo hi (parts, rest))
    (h' : ∀ {mid}, Laid source mid hi rest → Reads source mid hi (others, rest')) :
    Reads source lo hi (parts ++ others, rest') := by
  obtain ⟨mid, hparts, hrest⟩ := h
  obtain ⟨mid', hothers, hrest'⟩ := h' hrest
  exact ⟨mid', hparts.append hothers, hrest'⟩

/-- A part in front of what is read behind it. -/
theorem cons {part : Part} (hlo : lo ≤ part.range.start) (hpart : part.IsPlaced source)
    (h : Reads source part.range.stop hi (parts, rest)) :
    Reads source lo hi (part :: parts, rest) := by
  obtain ⟨mid, hparts, hrest⟩ := h
  exact ⟨mid, hparts.cons hlo hpart, hrest⟩

/-- Pieces that are passed over behind what has been read. -/
theorem skip {skipped : List Piece} (h : Reads source lo hi (parts, skipped ++ rest)) :
    Reads source lo hi (parts, rest) := by
  obtain ⟨mid, hparts, hrest⟩ := h
  exact ⟨mid, hparts, hrest.of_append_right⟩

/-- A part over the piece at the front. -/
theorem single {p : Piece} {part : Part} (h : Laid source lo hi (p :: ps))
    (hrange : part.range = p.range) (hpart : part.IsPlaced source) :
    Reads source lo hi ([part], ps) := by
  refine ⟨p.range.stop, .cons ?_ hpart (PartsPlaced.nil ?_), h.tail⟩
  · exact hrange ▸ h.inOrder.1
  · exact hrange ▸ Nat.le_refl _

end Reads

/-! ## Runs -/

/-- **A run of pieces as a part**: it stands in front of what is left. -/
theorem reads_spanning {kind : String} {fields : List String} {region : Region}
    {taken rest ps : List Piece} (h : Laid source lo hi ps) (heq : taken ++ rest = ps)
    (hopens : kind = "attribute" → ∀ p ∈ taken.head?, p.isSymbol '@' = true) :
    Reads source lo hi (Part.spanning kind fields region taken, rest) := by
  subst heq
  obtain ⟨mid, htaken, hrest⟩ := h.of_append
  cases taken with
  | nil => exact ⟨mid, PartsPlaced.nil htaken.inOrder, hrest⟩
  | cons p taken =>
    have hlast := Ordered.last_mem p taken
    refine ⟨mid, .cons htaken.inOrder.1 ⟨?_, ?_, htaken.span⟩ (PartsPlaced.nil ?_), hrest⟩
    · exact ⟨htaken.span.inOrder.le, htaken.head.proper.isBoundary_start,
        (htaken.placed _ hlast).proper.isBoundary_stop⟩
    · intro hkind
      have hsign := htaken.head.beginsAt_of_isSymbol (hopens hkind p rfl)
      exact ⟨⟨'@', hsign.1, rfl⟩, Nat.lt_of_lt_of_le hsign.2
        (htaken.span.inOrder.within (List.mem_cons_self ..)).2⟩
    · exact (htaken.inOrder.within hlast).2

/-- Nothing has to be known of a run that is no attribute. -/
theorem reads_run {kind : String} (hkind : kind ≠ "attribute") {fields : List String}
    {region : Region} {taken rest ps : List Piece} (h : Laid source lo hi ps)
    (heq : taken ++ rest = ps) :
    Reads source lo hi (Part.spanning kind fields region taken, rest) :=
  reads_spanning h heq (fun hk => absurd hk hkind)

/-- An attribute, whose first piece is its sign. -/
theorem reads_attribute {taken rest ps : List Piece} (h : Laid source lo hi ps)
    (heq : takeAttribute ps = (taken, rest)) :
    Reads source lo hi (Part.spanning "attribute" [] .expression taken, rest) := by
  refine reads_spanning h (splits_takeAttribute.eq heq) (fun _ p hp => ?_)
  obtain ⟨taken, rfl⟩ := List.head?_eq_some_iff.mp hp
  exact isSymbol_of_takeAttribute heq

/-! ## Single pieces -/

section

variable {p : Piece} {ps : List Piece}

/-- A part over one piece, whatever its role. -/
theorem Piece.IsPlaced.part (h : p.IsPlaced source) {part : Part} (hrange : part.range = p.range)
    (hpieces : part.pieces = [p]) (hkind : part.kind ≠ "attribute") : part.IsPlaced source := by
  refine ⟨hrange ▸ h.proper, fun hk => absurd hk hkind, ?_⟩
  rw [hrange, hpieces]
  exact h.laid_singleton

theorem Piece.IsPlaced.token (h : p.IsPlaced source) {kind : String}
    (hkind : kind ≠ "attribute") : (Part.token p kind).IsPlaced source :=
  h.part rfl rfl hkind

theorem Piece.IsPlaced.name (h : p.IsPlaced source) {kind : String}
    (hkind : kind ≠ "attribute") : (Part.name p kind).IsPlaced source :=
  h.part rfl rfl hkind

theorem Piece.IsPlaced.framed (h : p.IsPlaced source) {kind : String}
    (hkind : kind ≠ "attribute") (region : Region) (fields : List String) :
    (Part.framed p kind region fields).IsPlaced source :=
  ⟨h.proper, fun hk => absurd hk hkind, h.laid_parts⟩

/-- The comments before the next piece stand between it and the piece in
front. -/
theorem reads_comments (h : Laid source lo hi (p :: ps)) :
    Reads source p.range.stop hi ((ps.head?.map Part.comments).getD [], ps) := by
  cases ps with
  | nil => exact .nil h.tail
  | cons q ps =>
    have hcomments : q.place.lead.Between source p.range.stop q.range.start := h.followedBy
    refine ⟨q.range.start, ⟨Ordered.map_iff.mpr hcomments.inOrder, ?_⟩, h.tail.from_head⟩
    intro part hpart
    obtain ⟨range, hrange, rfl⟩ := List.mem_map.mp hpart
    have hproper := hcomments.proper range hrange
    exact ⟨hproper, fun hk => absurd hk (by simp), Laid.nil hproper.start_le_stop⟩

end

/-! ## Readers -/

/-- **A reader places its parts**: whatever it is given, what it reads
stands. -/
def Places (source : List Char) (read : List Piece → Reading) : Prop :=
  ∀ ⦃lo hi ps⦄, Laid source lo hi ps → Reads source lo hi (read ps)

/-- A reader that may refuse places its parts if it does not. -/
def MayPlace (source : List Char) (reader : PartReader) : Prop :=
  ∀ ⦃lo hi ps⦄, Laid source lo hi ps → ∀ r ∈ reader ps, Reads source lo hi r

theorem places_asPart {kind : String} {fields : List String} {region : Region}
    {take : List Piece → List Piece × List Piece} (htake : Splits take)
    (hkind : kind ≠ "attribute") : Places source (asPart kind fields region take) :=
  fun _ _ ps h => reads_run hkind h (htake ps)

section

variable {read : List Piece → Reading}

theorem Places.optionally (h : Places source read) : MayPlace source (optionally read) := by
  rintro lo hi ps hps r ⟨⟩
  exact h hps

theorem Places.necessarily (h : Places source read) : MayPlace source (necessarily read) := by
  intro lo hi ps hps r hr
  unfold Source.necessarily at hr
  split at hr
  · exact absurd hr (by simp)
  · obtain rfl := Option.some.inj hr
    exact h hps

end

/-- **Readers one after another** place their parts if each of them does. -/
theorem mayPlace_inOrder {readers : List PartReader} (h : readers.Forall (MayPlace source)) :
    MayPlace source (inOrder readers) := by
  induction readers with
  | nil =>
    rintro lo hi ps hps r ⟨⟩
    exact .nil hps
  | cons reader readers ih =>
    intro lo hi ps hps r hr
    obtain ⟨hreader, hreaders⟩ := (List.forall_cons ..).mp h
    rw [inOrder] at hr
    obtain ⟨⟨parts, rest⟩, hparts, hr⟩ := Option.bind_eq_some_iff.mp hr
    obtain ⟨⟨others, rest'⟩, hothers, rfl⟩ := Option.map_eq_some_iff.mp hr
    exact (hreader hps _ hparts).andThen (fun hrest => ih hreaders hrest _ hothers)

/-! ## Clauses -/

theorem places_takeModifiers (ground : Ground) (fuel : Nat) (behind : Bool) :
    Places source (takeModifiers ground fuel behind) := by
  intro lo hi ps h
  fun_induction takeModifiers ground fuel behind ps generalizing lo with
  | case1 fuel behind p ps _ others rest heq ih =>
    have htaken : p :: ps.take 1 ++ ps.drop 1 = p :: ps :=
      congrArg (p :: ·) (List.take_append_drop 1 ps)
    exact (reads_run (by simp) h htaken).andThen (fun hrest => heq ▸ ih hrest)
  | case2 fuel behind p ps _ _ taken rest htaken others rest' heq ih =>
    exact (reads_attribute h htaken).andThen (fun hrest => heq ▸ ih hrest)
  | case3 fuel behind p ps _ _ _ taken rest htaken others rest' heq ih =>
    have happend : taken ++ rest = p :: ps := append_of_eq (takeModifier_append p ps) htaken
    exact (reads_run (by simp) h happend).andThen (fun hrest => heq ▸ ih hrest)
  | case4 => exact .nil h
  | case5 => exact .nil h

theorem places_takeAttributes (fuel : Nat) : Places source (takeAttributes fuel) := by
  intro lo hi ps h
  fun_induction takeAttributes fuel ps generalizing lo with
  | case1 => exact .nil h
  | case2 fuel ps rest htaken => exact reads_attribute h htaken
  | case3 fuel ps taken rest _ htaken others rest' heq ih =>
    exact (reads_attribute h htaken).andThen (fun hrest => heq ▸ ih hrest)

theorem mayPlace_readGenerics : MayPlace source readGenerics :=
  (places_asPart splits_takeAngles (by simp)).optionally

theorem mayPlace_readConstraints (rule : LineRule) : MayPlace source (readConstraints rule) :=
  (places_asPart (splits_takeConstraints rule) (by simp)).optionally

theorem places_takeTypeBehind {kind : String} (hkind : kind ≠ "attribute") (sign : Char)
    (rule : LineRule) : Places source (takeTypeBehind kind sign rule) := by
  intro lo hi ps h
  fun_cases takeTypeBehind kind sign rule ps with
  | case1 p ps _ type rest heq =>
    exact reads_run hkind h (congrArg (p :: ·) ((splits_takeType rule).eq heq))
  | case2 => exact .nil h
  | case3 => exact .nil h

/-! ### Parameters -/

/-- Whether a part is a construct does not matter for where it stands. -/
theorem Reads.unnamed {parts : List Part} {rest : List Piece}
    (h : Reads source lo hi (parts, rest)) :
    Reads source lo hi (parts.map fun part => { part with named := false }, rest) := by
  obtain ⟨mid, hparts, hrest⟩ := h
  refine ⟨mid, ⟨Ordered.map_iff.mpr hparts.inOrder, ?_⟩, hrest⟩
  intro part hpart
  obtain ⟨inner, hinner, rfl⟩ := List.mem_map.mp hpart
  have hplaced := hparts.placed inner hinner
  exact ⟨hplaced.proper, hplaced.opens, hplaced.laid⟩

theorem reads_value {mode : ExpressionMode} {value rest ps : List Piece}
    (h : Laid source lo hi ps) (heq : takeExpression mode ps = (value, rest)) :
    Reads source lo hi (valueParts value, rest) := by
  unfold valueParts
  dsimp only
  split
  · exact (reads_run (by simp) h ((splits_takeExpression mode).eq heq)).unnamed
  · exact reads_run (by simp) h ((splits_takeExpression mode).eq heq)

theorem places_takeDefault : Places source takeDefault := by
  intro lo hi ps h
  fun_cases takeDefault ps with
  | case1 p ps _ comments value rest heq =>
    have hcomments : Reads source lo hi (Part.token p "=" :: comments, ps) :=
      .cons h.inOrder.1 (h.head.token (by simp)) (reads_comments h)
    exact hcomments.andThen (fun hrest => reads_value hrest heq)
  | case2 => exact .nil h
  | case3 => exact .nil h

theorem places_takeParameter : Places source takeParameter := by
  intro lo hi ps h
  have hattributes := places_takeAttributes ps.length h
  fun_cases takeParameter ps with
  | case1 attributes rest heq names colon rest' _ type rest₁ htype dots rest₂ hdots value rest₃
      hvalue hnames =>
    rw [heq] at hattributes
    have hrun : names ++ colon :: type ++ dots ++ rest₂ = rest := by
      rw [← (splits_takeRun parameterNameNext ()).eq hnames, ← (splits_takeType _).eq htype,
        ← splits_takeEllipsis.eq hdots]
      simp
    exact (hattributes.andThen (fun hrest => reads_run (by simp) hrest hrun)).andThen
      (fun hrest => hvalue ▸ places_takeDefault hrest)
  | case2 attributes rest heq names colon rest' _ hnames =>
    -- names without a colon are passed over
    rw [heq, ← (splits_takeRun parameterNameNext ()).eq hnames] at hattributes
    exact hattributes.skip
  | case3 attributes rest heq names hnames =>
    rw [heq, ← (splits_takeRun parameterNameNext ()).eq hnames] at hattributes
    exact hattributes.skip

/-- The parameters between parentheses stand there. -/
theorem parameterParts_placed (fuel : Nat) {ps : List Piece} (h : Laid source lo hi ps) :
    PartsPlaced source lo hi (parameterParts fuel ps) := by
  fun_induction parameterParts fuel ps generalizing lo with
  | case1 fuel p ps _ ih => exact .cons h.inOrder.1 (h.head.token (by simp)) (ih h.tail)
  | case2 fuel p ps _ _ parts rest heq ih =>
    have hparts := places_takeParameter h
    rw [heq] at hparts
    obtain ⟨mid, hparts, hrest⟩ := hparts
    exact hparts.append (ih hrest)
  | case3 fuel p ps _ _ ih => exact ih h.of_cons
  | case4 => exact .nil h.inOrder.le

/-- A list of parameters stands in its parentheses. -/
theorem parameterList_placed {p : Piece} (h : p.IsPlaced source)
    (hround : p.isFramed .round = true) :
    PartsPlaced source p.range.start p.range.stop (parameterList p) := by
  obtain ⟨hparts, hending, hstop⟩ := h.laid_of_isFramed hround
  refine (parameterParts_placed _ hparts).append (.cons (Nat.le_refl _) ?_ (.nil ?_))
  · exact ⟨hending, fun hk => absurd hk (by simp [closingPart]), Laid.nil hending.start_le_stop⟩
  · exact Nat.le_of_eq hstop

theorem places_takeParameterLists : Places source takeParameterLists := by
  intro lo hi ps h
  fun_induction takeParameterLists ps generalizing lo with
  | case1 => exact .nil h
  | case2 p ps hround others rest heq ih =>
    have hlist : Reads source lo hi (parameterList p, ps) :=
      ⟨p.range.stop, (parameterList_placed h.head hround).mono h.inOrder.1 (Nat.le_refl _), h.tail⟩
    exact hlist.andThen (fun hrest => heq ▸ ih hrest)
  | case3 => exact .nil h

theorem mayPlace_readParameters : MayPlace source readParameters :=
  places_takeParameterLists.necessarily

/-! ### Effects and results -/

theorem places_takeEffects (fuel : Nat) : Places source (takeEffects fuel) := by
  intro lo hi ps h
  fun_induction takeEffects fuel ps generalizing lo with
  | case1 fuel p ps _ others rest heq ih =>
    exact .cons h.inOrder.1 (h.head.token (by simp)) (heq ▸ ih h.tail)
  | case2 fuel p _ _ q ps _ others rest heq ih =>
    exact (reads_run (by simp) h rfl).andThen (fun hrest => heq ▸ ih hrest)
  | case3 fuel p _ _ q ps _ others rest heq ih =>
    exact (reads_run (by simp) h rfl).andThen (fun hrest => ih hrest)
  | case4 => exact reads_run (by simp) h rfl
  | case5 => exact .nil h
  | case6 => exact .nil h

theorem mayPlace_readEffects : MayPlace source readEffects :=
  Places.optionally (fun _ _ ps h => places_takeEffects ps.length h)

/-- Parts that are made of one piece each. -/
theorem reads_map {f : Piece → Part}
    (hf : ∀ p, p.IsPlaced source → (f p).range = p.range ∧ (f p).IsPlaced source)
    {taken rest : List Piece} (h : Laid source lo hi (taken ++ rest)) :
    Reads source lo hi (taken.map f, rest) := by
  induction taken generalizing lo with
  | nil => exact .nil h
  | cons p taken ih =>
    obtain ⟨hrange, hplaced⟩ := hf p h.head
    exact .cons (hrange ▸ h.inOrder.1) hplaced (hrange ▸ ih h.tail)

theorem places_takeResult (rule : LineRule) : Places source (takeResult rule) := by
  intro lo hi ps h
  fun_cases takeResult rule ps with
  | case1 p ps _ passing rest₁ hpassing attributes rest₂ hattributes type rest₃ htype inner mark
      hforce =>
    -- the mark is split off what has been taken as the type
    have hsplit : inner ++ mark = type := append_of_eq (splitForce_append type) hforce
    have hinner : inner ++ (mark ++ rest₃) = rest₂ := by
      rw [← List.append_assoc, hsplit, (splits_takeType rule).eq htype]
    have hpassed : Reads source lo hi (Part.token p "->" ::
        Part.spanning "parameter_modifiers" [] .closed passing, rest₁) :=
      .cons h.inOrder.1 (h.head.token (by simp))
        (reads_run (by simp) h.tail ((splits_takePassing rule).eq hpassing))
    have hattributed : Reads source lo hi (Part.token p "->" ::
        Part.spanning "parameter_modifiers" [] .closed passing ++
        Part.spanning "type_modifiers" ["return_type"] .expression attributes, rest₂) :=
      hpassed.andThen (fun hrest =>
        reads_run (by simp) hrest ((splits_takeTypeAttributes rule).eq hattributes))
    refine (hattributed.andThen (fun hrest => reads_run (by simp) hrest hinner)).andThen
      (fun hrest => reads_map (fun q hq => ⟨rfl, ?_⟩) hrest)
    exact hq.part rfl rfl (by simp [Part.token])
  | case2 => exact .nil h
  | case3 => exact .nil h

theorem mayPlace_readResult (rule : LineRule) : MayPlace source (readResult rule) :=
  (places_takeResult rule).optionally

/-! ### Inheritance and bodies -/

theorem places_takeInheritance (fuel : Nat) : Places source (takeInheritance fuel) := by
  intro lo hi ps h
  fun_induction takeInheritance fuel ps generalizing lo with
  | case1 => exact .nil h
  | case2 => exact places_asPart (splits_takeRun typeConstraintNext ()) (by simp) h
  | case3 fuel p ps _ _ _ taken rest htaken others rest' heq ih =>
    exact (reads_attribute h htaken).andThen (fun hrest => heq ▸ ih hrest)
  | case4 fuel p ps _ _ _ taken rest htaken others rest' heq ih =>
    exact (reads_run (by simp) h ((splits_takeRun inheritanceNext ()).eq htaken)).andThen
      (fun hrest => heq ▸ ih hrest)
  | case5 => exact .nil h

theorem mayPlace_readInheritance : MayPlace source readInheritance := by
  refine Places.optionally (fun lo hi ps h => ?_)
  split
  · split
    · exact places_takeInheritance _ h
    · exact .nil h
  · exact .nil h

theorem places_takeBody {kind : String} (hkind : kind ≠ "attribute") (region : Region) :
    Places source (takeBody kind region) := by
  intro lo hi ps h
  fun_cases takeBody kind region ps with
  | case1 => exact .single h rfl (h.head.framed hkind ..)
  | case2 => exact .nil h
  | case3 => exact .nil h

theorem mayPlace_readFunctionBody : MayPlace source readFunctionBody :=
  (places_takeBody (by simp) _).optionally

/-! ## Declarations -/

theorem places_takeFunctionName : Places source takeFunctionName := by
  intro lo hi ps h
  unfold takeFunctionName
  split
  · split
    · exact .single h rfl (h.head.name (by simp))
    · split
      rename_i operator rest hrun
      split
      rename_i operator' rest' hangle
      have happend : operator' ++ rest' = operator ++ rest :=
        append_of_eq (returnAngle_append operator rest) hangle
      refine reads_run (by simp) h (happend.trans ?_)
      exact (splits_takeRun operatorNext false).eq hrun
  · exact .nil h

theorem places_takeMark : Places source takeMark := by
  intro lo hi ps h
  fun_cases takeMark ps with
  | case1 => exact .single h rfl (h.head.token (by simp))
  | case2 => exact .single h rfl (h.head.token (by simp))
  | case3 => exact .nil h
  | case4 => exact .nil h

theorem places_takeTypeName : Places source takeTypeName := by
  intro lo hi ps h
  fun_cases takeTypeName ps with
  | case1 => exact .single h rfl (h.head.name (by simp))
  | case2 => exact .nil h
  | case3 => exact .nil h

/-! ### Properties -/

theorem places_takeValue (rule : LineRule) : Places source (takeValue rule) := by
  intro lo hi ps h
  fun_cases takeValue rule ps with
  | case1 p ps _ value rest heq =>
    exact .cons h.inOrder.1 (h.head.token (by simp))
      (reads_run (by simp) h.tail ((splits_takeExpression _).eq heq))
  | case2 => exact .nil h
  | case3 => exact .nil h

theorem places_takePropertyBlock (rule : LineRule) (initialized : Bool) :
    Places source (takePropertyBlock rule initialized) := by
  intro lo hi ps h
  fun_cases takePropertyBlock rule initialized ps with
  | case1 p ps _ =>
    unfold propertyBlock
    split
    · exact .single h rfl (h.head.framed (by simp) ..)
    · exact .single h rfl (h.head.framed (by simp) ..)
  | case2 => exact .nil h
  | case3 => exact .nil h

theorem mayPlace_takeBinding (rule : LineRule) : MayPlace source (takeBinding rule) := by
  intro lo hi ps h r hr
  cases ps with
  | nil => exact absurd hr (by simp [takeBinding])
  | cons pattern ps =>
    rw [takeBinding] at hr
    obtain ⟨_, -, hr⟩ := Option.bind_eq_some_iff.mp hr
    split at hr
    rename_i type rest₁ htype
    split at hr
    rename_i constraints rest₂ hconstraints
    split at hr
    rename_i value rest₃ hvalue
    split at hr
    rename_i block rest₄ hblock
    obtain rfl := Option.some.inj hr
    have hname : Reads source lo hi (Part.name pattern "pattern" :: type, rest₁) :=
      .cons h.inOrder.1 (h.head.name (by simp))
        (htype ▸ places_takeTypeBehind (by simp) ':' rule h.tail)
    have hconstrained : Reads source lo hi
        (Part.name pattern "pattern" :: type ++ constraints, rest₂) :=
      hname.andThen (fun hrest =>
        hconstraints ▸ places_asPart (splits_takeConstraints rule) (by simp) hrest)
    have hvalued : Reads source lo hi
        (Part.name pattern "pattern" :: type ++ constraints ++ value, rest₃) :=
      hconstrained.andThen (fun hrest => hvalue ▸ places_takeValue rule hrest)
    exact hvalued.andThen (fun hrest => hblock ▸ places_takePropertyBlock rule _ hrest)

theorem mayPlace_takeBindings (rule : LineRule) (fuel : Nat) :
    MayPlace source (takeBindings rule fuel) := by
  induction fuel with
  | zero => exact fun _ _ _ _ _ hr => absurd hr (by simp [takeBindings])
  | succ fuel ih =>
    intro lo hi ps h r hr
    rw [takeBindings] at hr
    obtain ⟨⟨binding, rest⟩, hbinding, hr⟩ := Option.bind_eq_some_iff.mp hr
    have hbinding := mayPlace_takeBinding rule h _ hbinding
    dsimp only at hr
    split at hr
    · split at hr
      · split at hr
        · rename_i more rest' hmore
          obtain rfl := Option.some.inj hr
          exact hbinding.andThen (fun hrest =>
            .cons hrest.inOrder.1 (hrest.head.token (by simp)) (ih hrest.tail _ hmore))
        · obtain rfl := Option.some.inj hr
          exact hbinding
      · obtain rfl := Option.some.inj hr
        exact hbinding
    · obtain rfl := Option.some.inj hr
      exact hbinding

/-! ### Keywords -/

/-- **A reader goes on behind a keyword**: it places its parts behind it, and
at least one over the keyword itself. -/
def GoesOn (source : List Char) (keyword : Piece) (reader : PartReader) : Prop :=
  ∀ ⦃lo hi ps⦄, Laid source lo hi (keyword :: ps) →
    ∀ r ∈ reader ps, r.1 ≠ [] ∧ Reads source lo hi r

/-- Readers one after another behind a keyword, of which the first only gives
the part over the keyword. -/
theorem goesOn_inOrder {keyword : Piece} {part : Part} (hrange : part.range = keyword.range)
    (hpieces : part.pieces = [keyword]) (hkind : part.kind ≠ "attribute")
    {readers : List PartReader} (h : readers.Forall (MayPlace source)) :
    GoesOn source keyword (inOrder (giving [part] :: readers)) := by
  intro lo hi ps hps r hr
  rw [inOrder, giving, Option.bind_some] at hr
  obtain ⟨⟨others, rest⟩, hothers, rfl⟩ := Option.map_eq_some_iff.mp hr
  exact ⟨List.cons_ne_nil part others, .cons (hrange ▸ hps.inOrder.1)
    (hps.head.part hrange hpieces hkind)
    (hrange ▸ mayPlace_inOrder h hps.tail (others, rest) hothers)⟩

section

variable (rule : LineRule) (keyword : Piece)

theorem goesOn_readFunction : GoesOn source keyword (readFunction rule keyword) :=
  goesOn_inOrder rfl rfl (by simp [Part.token])
    ⟨places_takeFunctionName.necessarily, mayPlace_readGenerics, mayPlace_readParameters,
      mayPlace_readEffects, mayPlace_readResult rule, mayPlace_readConstraints rule,
      mayPlace_readFunctionBody⟩

theorem goesOn_readInitializer : GoesOn source keyword (readInitializer rule keyword) :=
  goesOn_inOrder rfl rfl (by simp [Part.name])
    ⟨places_takeMark.optionally, mayPlace_readGenerics, mayPlace_readParameters,
      mayPlace_readEffects, mayPlace_readConstraints rule, mayPlace_readFunctionBody⟩

theorem goesOn_readSubscript : GoesOn source keyword (readSubscript rule keyword) :=
  goesOn_inOrder rfl rfl (by simp [Part.token])
    ⟨mayPlace_readGenerics, mayPlace_readParameters, mayPlace_readEffects,
      mayPlace_readResult rule, mayPlace_readConstraints rule,
      (places_takeBody (by simp) _).optionally⟩

theorem goesOn_readDeinitializer : GoesOn source keyword (readDeinitializer keyword) :=
  goesOn_inOrder rfl rfl (by simp [Part.token]) (places_takeBody (by simp) _).necessarily

theorem goesOn_readAlias : GoesOn source keyword (readAlias rule keyword) :=
  goesOn_inOrder rfl rfl (by simp [Part.token])
    ⟨places_takeTypeName.necessarily, mayPlace_readGenerics,
      (places_takeTypeBehind (by simp) _ rule).optionally, mayPlace_readConstraints rule,
      (places_takeTypeBehind (by simp) _ rule).optionally, mayPlace_readConstraints rule⟩

/-- The keyword of a type is told by its own text. -/
theorem goesOn_readType {text : String} (htext : text ≠ "attribute") :
    GoesOn source keyword (readType rule keyword text) := by
  refine goesOn_inOrder rfl rfl htext
    ⟨Places.necessarily ?_, mayPlace_readGenerics, mayPlace_readInheritance,
      (places_takeBody (by simp) _).necessarily⟩
  split
  · exact places_asPart (splits_takeType rule) (by simp)
  · exact places_takeTypeName

theorem goesOn_readProperty : GoesOn source keyword (readProperty rule keyword) :=
  goesOn_inOrder rfl rfl (by simp) (fun _ _ ps h => mayPlace_takeBindings rule ps.length h)

end

/-- **What a keyword asks for** goes on behind it, and is no attribute. -/
theorem goesOn_of_keywordReader? {ground : Ground} {keyword : Piece} {text kind : String}
    {reader : PartReader} (h : keywordReader? ground keyword text = some (kind, reader)) :
    kind ≠ "attribute" ∧ GoesOn source keyword reader := by
  -- the text of the keyword decides; each case gives its kind and its reader
  have asked {kind' : String} {reader' : PartReader}
      (h : some (kind', reader') = some (kind, reader)) (hkind : kind' ≠ "attribute")
      (hreader : GoesOn source keyword reader') :
      kind ≠ "attribute" ∧ GoesOn source keyword reader := by
    obtain ⟨rfl, rfl⟩ := Prod.mk.inj (Option.some.inj h)
    exact ⟨hkind, hreader⟩
  unfold keywordReader? at h
  dsimp only at h
  split at h
  · exact absurd h (by simp)
  · split at h
    · exact asked h (by split <;> simp) (goesOn_readProperty ..)
    · exact asked h (by split <;> simp) (goesOn_readProperty ..)
    · exact asked h (by split <;> simp) (goesOn_readFunction ..)
    · exact asked h (by simp) (goesOn_readInitializer ..)
    · exact asked h (by simp) (goesOn_readDeinitializer ..)
    · exact asked h (by simp) (goesOn_readSubscript ..)
    · exact asked h (by simp) (goesOn_readAlias ..)
    · exact asked h (by simp) (goesOn_readAlias ..)
    · exact asked h (by simp) (goesOn_readType _ _ (by simp))
    · exact asked h (by simp) (goesOn_readType _ _ (by simp))
    · exact asked h (by simp) (goesOn_readType _ _ (by simp))
    · exact asked h (by simp) (goesOn_readType _ _ (by simp))
    · exact asked h (by simp) (goesOn_readType _ _ (by simp))
    · exact asked h (by simp) (goesOn_readType _ _ (by simp))
    · exact absurd h (by simp)

/-! ## Items -/

/-- **A declaration between two offsets**: its modifiers stand at the first of
them and its parts, of which there is one, behind these; and it is no
attribute. -/
structure DeclarationParts.IsPlaced (source : List Char) (lo hi : Nat) (d : DeclarationParts) :
    Prop where
  kind_ne : d.kind ≠ "attribute"
  start_eq : d.start = lo
  isBoundary_start : isBoundary d.start source = true
  parts_ne : d.parts ≠ []
  parts : ∃ mid, PartsPlaced source lo mid d.modifiers ∧ PartsPlaced source mid hi d.parts

/-- **A declaration that is read behind its modifiers** stands there. -/
theorem readKeyword?_placed {ground : Ground} {start mid : Nat} {modifiers : List Part}
    {ps rest : List Piece} {d : DeclarationParts}
    (hstart : isBoundary start source = true) (hmodifiers : PartsPlaced source start mid modifiers)
    (h : Laid source mid hi ps)
    (hd : readKeyword? ground start modifiers ps = some (d, rest)) :
    ∃ stop, d.IsPlaced source start stop ∧ Laid source stop hi rest := by
  unfold readKeyword? at hd
  cases ps with
  | nil => exact absurd hd (by simp)
  | cons keyword ps =>
    rw [List.head?_cons, Option.bind_eq_bind, Option.bind_some] at hd
    obtain ⟨text, -, hd⟩ := Option.bind_eq_some_iff.mp hd
    obtain ⟨⟨kind, reader⟩, hreader, hd⟩ := Option.bind_eq_some_iff.mp hd
    obtain ⟨⟨parts, rest'⟩, hparts, hd⟩ := Option.bind_eq_some_iff.mp hd
    obtain ⟨rfl, rfl⟩ := Prod.mk.inj (Option.some.inj hd)
    obtain ⟨hkind, hgoesOn⟩ :
        kind ≠ "attribute" ∧ GoesOn source keyword reader := goesOn_of_keywordReader? hreader
    obtain ⟨hne, stop, hplaced, hrest⟩ := hgoesOn h _ hparts
    exact ⟨stop, ⟨hkind, rfl, hstart, hne, mid, hmodifiers, hplaced⟩, hrest⟩

/-- A run keeps its pieces. -/
theorem pieces_spanning (kind : String) (fields : List String) (region : Region)
    (taken : List Piece) :
    (Part.spanning kind fields region taken).flatMap Part.pieces = taken := by
  cases taken with
  | nil => rfl
  | cons p ps => exact List.append_nil _

/-- **Modifiers keep their pieces**: with what is left, they make up the pieces
again. -/
theorem takeModifiers_append (ground : Ground) (fuel : Nat) (behind : Bool) (ps : List Piece) :
    (takeModifiers ground fuel behind ps).1.flatMap Part.pieces
      ++ (takeModifiers ground fuel behind ps).2 = ps := by
  fun_induction takeModifiers ground fuel behind ps with
  | case1 fuel behind p ps _ others rest heq ih =>
    rw [heq] at ih
    rw [List.flatMap_append, pieces_spanning, List.append_assoc, ih, List.cons_append,
      List.take_append_drop]
  | case2 fuel behind p ps _ _ taken rest htaken others rest' heq ih =>
    rw [heq] at ih
    rw [List.flatMap_append, pieces_spanning, List.append_assoc, ih,
      splits_takeAttribute.eq htaken]
  | case3 fuel behind p ps _ _ _ taken rest htaken others rest' heq ih =>
    have happend : taken ++ rest = p :: ps := append_of_eq (takeModifier_append p ps) htaken
    rw [heq] at ih
    rw [List.flatMap_append, pieces_spanning, List.append_assoc, ih, happend]
  | case4 => rfl
  | case5 => rfl

theorem takeOther_append (ground : Ground) (modifiers : List Part) (ps : List Piece) :
    (takeOther ground modifiers ps).1 ++ (takeOther ground modifiers ps).2
      = modifiers.flatMap Part.pieces ++ ps := by
  fun_cases takeOther ground modifiers ps with
  | case1 p rest => exact takeStatement_append p rest
  | case2 p rest => exact takeStatement_append p rest
  | case3 p rest => exact takeMember_append p rest
  | case4 p rest => exact takeMember_append p rest
  | case5 => rfl

section

variable {fuel : Nat} {ground : Ground} {first : Piece} {ps rest : List Piece}

/-- **An item that is a declaration** stands in front of what is left. -/
theorem takeItem_declaration {d : DeclarationParts} (h : Laid source lo hi (first :: ps))
    (hitem : takeItem fuel ground first ps = (.declaration d, rest)) :
    ∃ stop, d.IsPlaced source first.range.start stop ∧ Laid source stop hi rest := by
  -- a declaration begins with its first piece, behind the comments in front of it
  obtain ⟨mid, hmodifiers, hleft⟩ := places_takeModifiers ground fuel false h.from_head
  unfold takeItem at hitem
  dsimp only at hitem
  split at hitem
  · rename_i hread
    obtain ⟨hd, rfl⟩ := Prod.mk.inj hitem
    obtain rfl := Item.declaration.inj hd
    exact readKeyword?_placed h.head.proper.isBoundary_start hmodifiers hleft hread
  · exact absurd (Prod.mk.inj hitem).1 (by simp)

/-- An item that is none is made of the pieces in front of what is left. -/
theorem takeItem_other {taken : List Piece}
    (hitem : takeItem fuel ground first ps = (.other taken, rest)) :
    taken ++ rest = first :: ps := by
  have hmodifiers := takeModifiers_append ground fuel false (first :: ps)
  unfold takeItem at hitem
  dsimp only at hitem
  split at hitem
  · exact absurd (Prod.mk.inj hitem).1 (by simp)
  · obtain ⟨htaken, rfl⟩ := Prod.mk.inj hitem
    obtain rfl := Item.other.inj htaken
    rw [takeOther_append, hmodifiers]

end

/-! ## Clauses of a computed property -/

/-- A clause is no attribute. -/
theorem ne_attribute_of_accessorClause? {p : Piece} {kind : String}
    (h : accessorClause? p = some kind) : kind ≠ "attribute" := by
  obtain ⟨word, -, hlookup⟩ := Option.bind_eq_some_iff.mp h
  obtain ⟨front, back, hclauses, -⟩ := List.lookup_eq_some_iff.mp hlookup
  have hmem : (word, kind) ∈ accessorClauses := by
    rw [hclauses]
    simp
  rintro rfl
  simp [accessorClauses] at hmem

/-- **The clauses of a computed property** stand in its block. -/
theorem clauseParts_placed (fuel : Nat) {ps : List Piece} (h : Laid source lo hi ps) :
    PartsPlaced source lo hi (clauseParts fuel ps) := by
  fun_induction clauseParts fuel ps generalizing lo with
  | case1 fuel p ps kind hkind taken rest heq ih =>
    have hrun : p :: taken ++ rest = p :: ps :=
      congrArg (p :: ·) ((splits_takeRun clauseNext false).eq heq)
    obtain ⟨mid, hclause, hrest⟩ := reads_run (ne_attribute_of_accessorClause? hkind) h hrun
    exact hclause.append (ih hrest)
  | case2 fuel p ps _ _ taken rest heq ih =>
    obtain ⟨mid, hattribute, hrest⟩ := reads_attribute h heq
    exact hattribute.append (ih hrest)
  | case3 fuel p ps _ _ ih => exact ih h.of_cons
  | case4 => exact .nil h.inOrder.le

end TestAccess.Source
