import TestAccess.Proofs.OrderedRanges
import TestAccess.Source.Piece
import Mathlib.Data.List.Chain

/-!
# Where pieces stand

The pieces of a source cover stretches of it: one behind the other, the parts of
a piece between its brackets, and the comments that are kept with a piece
between it and the piece in front of it. `Laid` says that of a list of pieces,
and `pieces_laid` that it holds of the pieces of every source.

Both passes of the reader are followed. In the first, the text that is left
always stands at the offset that has been counted (`Progress.Stands`), so that
a step which emits an event has passed exactly the characters the event covers
(`Progress.step_stands`), and the events come out in a line (`events_lined`).
The second pass only has to keep what is in order in order, and it keeps part
of it on its stack (`Opened`).
-/

namespace TestAccess

namespace Chars

/-- **A text stands at an offset** of a source when it is what follows a
beginning of that width. -/
def StandsAt (source : List Char) (offset : Nat) (cs : List Char) : Prop :=
  ∃ front, source = front ++ cs ∧ width front = offset

namespace StandsAt

variable {source cs : List Char} {offset : Nat}

theorem isBoundary (h : StandsAt source offset cs) : Chars.isBoundary offset source = true := by
  obtain ⟨front, hsource, hwidth⟩ := h
  exact (isBoundary_iff ..).mpr ⟨front, cs, hsource, hwidth⟩

/-- Behind some characters of the text stands the rest of it. -/
theorem drop (h : StandsAt source offset cs) (n : Nat) :
    StandsAt source (offset + width (cs.take n)) (cs.drop n) := by
  obtain ⟨front, hsource, hwidth⟩ := h
  refine ⟨front ++ cs.take n, ?_, by rw [width_append, hwidth]⟩
  rw [List.append_assoc, List.take_append_drop, hsource]

theorem beginsAt {c : Char} (h : StandsAt source offset (c :: cs)) : BeginsAt source offset c := by
  obtain ⟨front, hsource, hwidth⟩ := h
  exact ⟨front, cs, hsource, hwidth⟩

end StandsAt

end Chars

namespace Source

open Chars

variable {source : List Char} {lo hi : Nat}

/-! ## Events -/

/-- **Comments between two offsets**: they are in order there, and each is a
stretch of the source. -/
structure Lead.Between (source : List Char) (lo hi : Nat) (lead : Lead) : Prop where
  inOrder : Ordered id lo hi lead.comments
  proper : ∀ range ∈ lead.comments, range.IsProper source

namespace Lead.Between

variable {lead : Lead}

theorem empty (source : List Char) (offset : Nat) : Between source offset offset {} :=
  ⟨Nat.le_refl offset, fun _ h => absurd h (List.not_mem_nil)⟩

theorem le (h : lead.Between source lo hi) : lo ≤ hi := h.inOrder.le

theorem mono {lo' hi' : Nat} (h : lead.Between source lo hi) (hlo : lo' ≤ lo) (hhi : hi ≤ hi') :
    lead.Between source lo' hi' :=
  ⟨h.inOrder.mono hlo hhi, h.proper⟩

/-- A gap has no comments. -/
theorem addGap (h : lead.Between source lo hi) (newline : Bool) :
    (lead.addGap newline).Between source lo hi :=
  ⟨h.inOrder, h.proper⟩

/-- A comment that begins where the others end. -/
theorem addComment {range : ByteRange} (h : lead.Between source lo range.start)
    (hproper : range.IsProper source) (bracketed : Bool) :
    (lead.addComment bracketed range).Between source lo range.stop := by
  refine ⟨h.inOrder.append ⟨Nat.le_refl _, hproper.start_le_stop, Nat.le_refl _⟩, ?_⟩
  intro r hr
  rcases List.mem_append.mp hr with hr | hr
  · exact h.proper r hr
  · rwa [List.mem_singleton.mp hr]

end Lead.Between

/-- What a lexeme over a range says of the source: a symbol is the character
that begins there. -/
def Lexeme.Covers (source : List Char) (range : ByteRange) (lexeme : Lexeme) : Prop :=
  ∀ c, lexeme = .symbol c → BeginsAt source range.start c ∧ range.start < range.stop

/-- The stretch that an event covers. -/
def Event.range : Event → ByteRange
  | .leaf place _ => place.range
  | .opening place _ => place.range
  | .closing range => range

/-- What is kept with an event about the gap in front of it. -/
def Event.lead : Event → Lead
  | .leaf place _ => place.lead
  | .opening place _ => place.lead
  | .closing _ => {}

/-- **An event stands behind an offset**: it covers a stretch of the source
there, with its comments in front. -/
structure Event.Stands (source : List Char) (lo : Nat) (e : Event) : Prop where
  proper : e.range.IsProper source
  lead : e.lead.Between source lo e.range.start
  covers : ∀ place lexeme, e = .leaf place lexeme → lexeme.Covers source place.range

/-- **Events in a line**: each stands behind the end of the one in front of
it. -/
def Lined (source : List Char) : Nat → List Event → Prop
  | lo, [] => lo ≤ width source
  | lo, e :: es => e.Stands source lo ∧ Lined source e.range.stop es

/-! ## Reading -/

/-- A word or a number is no symbol. -/
theorem ne_symbol_of_wordOrNumber? {cs : List Char} {lexeme : Lexeme} {length : Nat}
    (h : wordOrNumber? cs = some (lexeme, length)) (c : Char) : lexeme ≠ .symbol c := by
  unfold wordOrNumber? at h
  rintro rfl
  split at h
  · exact absurd h (by simp)
  · dsimp only at h
    split at h <;> simp at h
  · dsimp only at h
    split at h
    · simp at h
    · split at h <;> simp at h

/-- **A symbol is the character** at which the reader stands. -/
theorem eq_of_codeStep_eq_symbol {ended breaks : Bool} {c d : Char} {cs : List Char}
    {length : Nat} (h : codeStep ended breaks c cs = .lexeme (.symbol d) length) :
    d = c ∧ length = 1 := by
  unfold codeStep at h
  split at h
  · simp at h
  · unfold visibleStep at h
    split at h
    · simp at h
    · simp at h
    · rename_i hword
      obtain ⟨rfl, rfl⟩ := CodeStep.lexeme.inj h
      exact absurd rfl (ne_symbol_of_wordOrNumber? hword d)
    · simp at h
    · split at h
      · simp at h
      · split at h
        · simp at h
        · split at h
          · simp at h
          · obtain ⟨hsymbol, rfl⟩ := CodeStep.lexeme.inj h
            exact ⟨(Lexeme.symbol.inj hsymbol).symm, rfl⟩

namespace Progress

variable {s : Progress}

/-- **What has been read and what is left** make up the source, and all comments
behind an offset that have been read are kept. -/
structure Stands (source : List Char) (lo : Nat) (s : Progress) : Prop where
  rest : StandsAt source s.offset s.rest
  lead : s.lead.Between source lo s.offset

theorem offset_le_pass (s : Progress) (length : Nat) : s.offset ≤ (s.pass length).offset :=
  Nat.le_add_right ..

namespace Stands

theorem proper (h : s.Stands source lo) (length : Nat) : (s.rangeOf length).IsProper source :=
  ⟨s.offset_le_pass length, h.rest.isBoundary, (h.rest.drop length).isBoundary⟩

/-- The events of the characters that come next. -/
theorem leaf (h : s.Stands source lo) {length : Nat} {lexeme : Lexeme}
    (hcovers : lexeme.Covers source (s.rangeOf length)) :
    (Event.leaf { range := s.rangeOf length, lead := s.lead } lexeme).Stands source lo := by
  refine ⟨h.proper length, h.lead, ?_⟩
  rintro place lexeme ⟨⟩
  exact hcovers

theorem opening (h : s.Stands source lo) (length : Nat) (frame : Frame) :
    (Event.opening { range := s.rangeOf length, lead := s.lead } frame).Stands source lo :=
  ⟨h.proper length, h.lead, fun _ _ h => nomatch h⟩

theorem interpolation (h : s.Stands source lo) (length : Nat) (frame : Frame) :
    (Event.opening { range := s.rangeOf length } frame).Stands source lo :=
  ⟨h.proper length, (Lead.Between.empty ..).mono h.lead.le (Nat.le_refl _),
    fun _ _ h => nomatch h⟩

theorem closing (h : s.Stands source lo) (length : Nat) :
    (Event.closing (s.rangeOf length)).Stands source lo :=
  ⟨h.proper length, (Lead.Between.empty ..).mono h.lead.le (Nat.le_refl _),
    fun _ _ h => nomatch h⟩

/-- Behind some characters, with nothing kept about them. -/
theorem pass (h : s.Stands source lo) (length : Nat) (contexts : List Context) (ended : Bool) :
    { s.pass length with contexts, lead := {}, ended }.Stands source (s.rangeOf length).stop :=
  ⟨h.rest.drop length, Lead.Between.empty ..⟩

end Stands

/-- **What a step gives**: an event behind an offset, and what is left behind
the event, or nothing but what is left. -/
def StepStands (source : List Char) (lo : Nat) : Option Event × Progress → Prop
  | (some e, next) => e.Stands source lo ∧ next.Stands source e.range.stop
  | (none, next) => next.Stands source lo

theorem stepInContents_stands (h : s.Stands source lo) (outer : List Context)
    (step : ContentsStep) : StepStands source lo (s.stepInContents outer step) := by
  cases step with
  | skip length =>
    exact ⟨h.rest.drop length, h.lead.mono (Nat.le_refl _) (s.offset_le_pass length)⟩
  | interpolation length => exact ⟨h.interpolation length _, h.pass length _ _⟩
  | closing length => exact ⟨h.closing length, h.pass length _ _⟩

theorem stepInCode_stands (h : s.Stands source lo) {step : CodeStep}
    (hsymbol : ∀ c length, step = .lexeme (.symbol c) length →
      BeginsAt source s.offset c ∧ s.offset < (s.pass length).offset) :
    StepStands source lo (s.stepInCode step) := by
  cases step with
  | gap length newline =>
    exact ⟨h.rest.drop length,
      (h.lead.mono (Nat.le_refl _) (s.offset_le_pass length)).addGap newline⟩
  | comment length bracketed =>
    exact ⟨h.rest.drop length, h.lead.addComment (h.proper length) bracketed⟩
  | literal length signs multiline => exact ⟨h.opening length _, h.pass length _ _⟩
  | lexeme lexeme length =>
    refine ⟨h.leaf ?_, h.pass length _ _⟩
    rintro c rfl
    exact hsymbol c length rfl
  | opening frame => exact ⟨h.opening 1 frame, h.pass 1 _ _⟩
  | closing bracket =>
    -- a bracket that closes nothing is passed over, and so are the comments before it
    have hpassed (contexts : List Context) :
        { s.pass 1 with contexts, lead := {}, ended := true }.Stands source lo :=
      ⟨h.rest.drop 1,
        (Lead.Between.empty ..).mono (Nat.le_trans h.lead.le (s.offset_le_pass 1)) (Nat.le_refl _)⟩
    unfold stepInCode
    dsimp only
    split
    · split
      · exact ⟨h.closing 1, h.pass 1 _ _⟩
      · exact hpassed _
    · exact hpassed _

/-- **A step stands** where the reader stood before. -/
theorem step_stands (h : s.Stands source lo) {c : Char} {cs : List Char}
    (hrest : s.rest = c :: cs) : StepStands source lo (s.step c cs) := by
  unfold step
  split
  · exact stepInContents_stands h ..
  · refine stepInCode_stands h (fun d length hd => ?_)
    obtain ⟨rfl, rfl⟩ := eq_of_codeStep_eq_symbol hd
    refine ⟨(hrest ▸ h.rest : StandsAt source s.offset (d :: cs)).beginsAt, ?_⟩
    show s.offset < s.offset + width (s.rest.take 1)
    rw [hrest, List.take_succ_cons, width_cons]
    have := d.utf8Size_pos
    omega

end Progress

/-- **The events of a text are in a line.** -/
theorem events_lined (fuel : Nat) {s : Progress} (h : s.Stands source lo) :
    Lined source lo (events fuel s) := by
  have hend : lo ≤ width source :=
    Nat.le_trans h.lead.le (le_width_of_isBoundary h.rest.isBoundary)
  induction fuel generalizing s lo with
  | zero => exact hend
  | succ fuel ih =>
    rw [events]
    split
    · exact hend
    · rename_i c cs hrest
      have hstep := Progress.step_stands h hrest
      split
      · rename_i e next heq
        rw [heq] at hstep
        exact ⟨hstep.1, ih hstep.2 (le_width_of_isBoundary hstep.1.proper.isBoundary_stop)⟩
      · rename_i next heq
        rw [heq] at hstep
        exact ih hstep hend

/-! ## Pieces -/

/-- The comments of a piece stand between it and the piece in front of it. -/
def Piece.FollowedBy (source : List Char) (p q : Piece) : Prop :=
  q.place.lead.Between source p.range.stop q.range.start

/-- **A piece is placed over a source**: it covers a stretch of it, and its
parts stand between its beginning and the bracket at its end, one behind the
other, with their comments between them. -/
inductive Piece.IsPlaced (source : List Char) : Piece → Prop where
  | leaf {place : Place} {lexeme : Lexeme} (proper : place.range.IsProper source)
      (covers : lexeme.Covers source place.range) : IsPlaced source (.leaf place lexeme)
  | nested {place : Place} {frame : Frame} {parts : List Piece}
      (proper : place.range.IsProper source) (ending : place.ending.IsProper source)
      (ends : place.ending.stop = place.range.stop)
      (inOrder : Ordered Piece.range place.range.start place.ending.start parts)
      (placed : ∀ p ∈ parts, IsPlaced source p)
      (commented : parts.IsChain (FollowedBy source)) :
      IsPlaced source (.nested place frame parts)

/-- **Pieces laid between two offsets** of a source: they are in order there,
each is placed, and the comments before each but the first stand behind the
piece in front of it. -/
structure Laid (source : List Char) (lo hi : Nat) (ps : List Piece) : Prop where
  inOrder : Ordered Piece.range lo hi ps
  placed : ∀ p ∈ ps, p.IsPlaced source
  commented : ps.IsChain (Piece.FollowedBy source)

namespace Laid

variable {p : Piece} {ps qs : List Piece}

theorem nil (h : lo ≤ hi) : Laid source lo hi [] :=
  ⟨h, fun _ h => absurd h (List.not_mem_nil), List.isChain_nil⟩

theorem mono {lo' hi' : Nat} (h : Laid source lo hi ps) (hlo : lo' ≤ lo) (hhi : hi ≤ hi') :
    Laid source lo' hi' ps :=
  ⟨h.inOrder.mono hlo hhi, h.placed, h.commented⟩

/-- A piece behind others. -/
theorem concat (h : Laid source lo hi ps) (hp : p.IsPlaced source)
    (hlead : p.place.lead.Between source hi p.range.start) (hproper : p.range.IsProper source) :
    Laid source lo p.range.stop (ps ++ [p]) := by
  refine ⟨h.inOrder.append ⟨hlead.le, hproper.start_le_stop, Nat.le_refl _⟩, ?_, ?_⟩
  · intro q hq
    rcases List.mem_append.mp hq with hq | hq
    · exact h.placed q hq
    · rwa [List.mem_singleton.mp hq]
  · refine List.isChain_append.mpr ⟨h.commented, List.isChain_singleton p, ?_⟩
    intro q hq r hr
    obtain rfl := Option.mem_some_iff.mp hr
    exact hlead.mono (h.inOrder.within (List.mem_of_mem_getLast? hq)).2 (Nat.le_refl _)

/-- Between two runs of pieces there is an offset. -/
theorem of_append (h : Laid source lo hi (ps ++ qs)) :
    ∃ mid, Laid source lo mid ps ∧ Laid source mid hi qs := by
  obtain ⟨mid, hps, hqs⟩ := Ordered.append_iff.mp h.inOrder
  have hchain := List.isChain_append.mp h.commented
  refine ⟨mid, ⟨hps, fun p hp => h.placed p ?_, hchain.1⟩,
    ⟨hqs, fun q hq => h.placed q ?_, hchain.2.1⟩⟩
  · exact List.mem_append_left _ hp
  · exact List.mem_append_right _ hq

theorem head (h : Laid source lo hi (p :: ps)) : p.IsPlaced source :=
  h.placed p (List.mem_cons_self ..)

theorem tail (h : Laid source lo hi (p :: ps)) : Laid source p.range.stop hi ps :=
  ⟨h.inOrder.2.2, fun q hq => h.placed q (List.mem_cons_of_mem _ hq), h.commented.of_cons⟩

theorem followedBy {q : Piece} (h : Laid source lo hi (p :: q :: ps)) : p.FollowedBy source q :=
  (List.isChain_cons_cons.mp h.commented).1

/-- Pieces are laid from where the first begins to where the last ends. -/
theorem span (h : Laid source lo hi (p :: ps)) :
    Laid source p.range.start (ps.getLast?.getD p).range.stop (p :: ps) :=
  ⟨h.inOrder.span, h.placed, h.commented⟩

/-- What stands in front of the first piece does not matter. -/
theorem from_head (h : Laid source lo hi (p :: ps)) : Laid source p.range.start hi (p :: ps) :=
  ⟨⟨Nat.le_refl _, h.inOrder.2⟩, h.placed, h.commented⟩

theorem of_append_right (h : Laid source lo hi (ps ++ qs)) : Laid source lo hi qs := by
  obtain ⟨mid, hps, hqs⟩ := h.of_append
  exact hqs.mono hps.inOrder.le (Nat.le_refl hi)

theorem of_cons (h : Laid source lo hi (p :: ps)) : Laid source lo hi ps :=
  h.tail.mono (Nat.le_trans h.inOrder.1 h.inOrder.2.1) (Nat.le_refl _)

end Laid

namespace Piece.IsPlaced

variable {p : Piece}

theorem proper (h : p.IsPlaced source) : p.range.IsProper source := by
  cases h with
  | leaf proper => exact proper
  | nested proper => exact proper

/-- The parts of a piece in brackets stand in front of the bracket at its end. -/
theorem laid_of_isFramed (h : p.IsPlaced source) {frame : Frame}
    (hframe : p.isFramed frame = true) :
    Laid source p.range.start p.place.ending.start p.parts
      ∧ p.place.ending.IsProper source ∧ p.place.ending.stop = p.range.stop := by
  cases h with
  | leaf => exact absurd hframe (by simp [isFramed])
  | nested proper ending ends inOrder placed commented =>
    exact ⟨⟨inOrder, placed, commented⟩, ending, ends⟩

/-- The parts of a piece stand in it. -/
theorem laid_parts (h : p.IsPlaced source) : Laid source p.range.start p.range.stop p.parts := by
  cases h with
  | leaf proper => exact Laid.nil proper.start_le_stop
  | nested proper ending ends inOrder placed commented =>
    refine Laid.mono ⟨inOrder, placed, commented⟩ (Nat.le_refl _) ?_
    exact Nat.le_trans ending.start_le_stop (Nat.le_of_eq ends)

/-- A piece by itself. -/
theorem laid_singleton (h : p.IsPlaced source) : Laid source p.range.start p.range.stop [p] :=
  ⟨⟨Nat.le_refl _, h.proper.start_le_stop, Nat.le_refl _⟩,
    fun _ hq => List.mem_singleton.mp hq ▸ h, List.isChain_singleton p⟩

/-- What begins where a symbol does. -/
theorem beginsAt_of_isSymbol (h : p.IsPlaced source) {c : Char} (hc : p.isSymbol c = true) :
    BeginsAt source p.range.start c ∧ p.range.start < p.range.stop := by
  cases h with
  | @leaf place lexeme _ covers =>
    refine covers c ?_
    cases lexeme <;> simp [isSymbol, symbol?] at hc
    rw [hc]
  | nested => exact absurd hc (by simp [isSymbol, symbol?])

end Piece.IsPlaced

/-! ## Pairing -/

/-- **Brackets that are open**, with the offset behind the innermost of them:
each covers a stretch of the source, and the pieces in front of it are laid from
where the bracket around it ends. -/
inductive Opened (source : List Char) : Nat → List OpenFrame → Prop where
  | bottom : Opened source 0 []
  | bracket {o : OpenFrame} {outer : List OpenFrame} {lo hi : Nat}
      (outside : Opened source lo outer) (before : Laid source lo hi o.before.reverse)
      (proper : o.place.range.IsProper source)
      (lead : o.place.lead.Between source hi o.place.range.start) :
      Opened source o.place.range.stop (o :: outer)

/-- **A bracket is closed** behind the pieces in it; the hypotheses are about
the bracket at its end, which may be missing. -/
theorem Opened.close {o : OpenFrame} {outer : List OpenFrame} {inside : List Piece}
    (h : Opened source lo (o :: outer)) (hinside : Laid source lo hi inside.reverse)
    (stop : Nat) (closing : Option ByteRange)
    (hproper : (closing.getD ⟨stop, stop⟩).IsProper source)
    (hstop : (closing.getD ⟨stop, stop⟩).stop = stop)
    (hhi : hi ≤ (closing.getD ⟨stop, stop⟩).start) :
    ∃ lo', Opened source lo' outer ∧
      Laid source lo' stop (o.close stop closing inside).reverse := by
  cases h with
  | @bracket _ _ lo' hi' outside before proper lead =>
    -- the range that was only the bracket's now reaches up to `stop`
    have hlaid := hinside.mono proper.start_le_stop hhi
    have hboundary : isBoundary stop source = true := hstop ▸ hproper.isBoundary_stop
    have hle : o.place.range.start ≤ stop :=
      Nat.le_trans hlaid.inOrder.le (Nat.le_trans hproper.start_le_stop (Nat.le_of_eq hstop))
    have hrange : ByteRange.IsProper source ⟨o.place.range.start, stop⟩ :=
      ⟨hle, proper.isBoundary_start, hboundary⟩
    have hpiece : Piece.IsPlaced source
        (.nested { o.place with range := ⟨o.place.range.start, stop⟩, closing } o.frame
          inside.reverse) :=
      .nested hrange hproper hstop hlaid.inOrder hlaid.placed hlaid.commented
    rw [OpenFrame.close, List.reverse_cons]
    exact ⟨lo', outside, before.concat hpiece lead hrange⟩

/-- Brackets that are left open reach to the end of the source. -/
theorem closeAll_laid {outer : List OpenFrame} {inside : List Piece} (h : Opened source lo outer)
    (hinside : Laid source lo hi inside.reverse) (hhi : hi ≤ width source) :
    Laid source 0 (width source) (closeAll (width source) outer inside) := by
  induction outer generalizing lo hi inside with
  | nil =>
    cases h
    exact hinside.mono (Nat.le_refl _) hhi
  | cons o outer ih =>
    have hend : ByteRange.IsProper source ⟨width source, width source⟩ := by
      have hboundary : isBoundary (width source) source = true :=
        (isBoundary_iff ..).mpr ⟨source, [], (List.append_nil _).symm, rfl⟩
      exact ⟨Nat.le_refl _, hboundary, hboundary⟩
    obtain ⟨lo', houter, hlaid⟩ := h.close hinside (width source) none hend rfl hhi
    exact ih houter hlaid (Nat.le_refl _)

/-- **What is paired is laid**: with brackets open, pieces in the innermost of
them, and events behind these. -/
theorem pair_laid {es : List Event} {outer : List OpenFrame} {inside : List Piece}
    (h : Opened source lo outer) (hinside : Laid source lo hi inside.reverse)
    (hes : Lined source hi es) :
    Laid source 0 (width source) (pair (width source) outer inside es) := by
  induction es generalizing lo hi outer inside with
  | nil =>
    rw [pair]
    exact closeAll_laid h hinside hes
  | cons e es ih =>
    obtain ⟨he, hes⟩ := hes
    cases e with
    | leaf place lexeme =>
      rw [pair]
      refine ih h ?_ hes
      rw [List.reverse_cons]
      exact hinside.concat (.leaf he.proper (he.covers place lexeme rfl)) he.lead he.proper
    | opening place frame =>
      rw [pair]
      exact ih (.bracket h hinside he.proper he.lead) (Laid.nil (Nat.le_refl _)) hes
    | closing range =>
      cases outer with
      | nil =>
        -- nothing is open, so the pieces stay as they are
        rw [pair]
        refine ih h (hinside.mono (Nat.le_refl _) ?_) hes
        exact Nat.le_trans he.lead.le he.proper.start_le_stop
      | cons o outer =>
        rw [pair]
        obtain ⟨lo', houter, hlaid⟩ :=
          h.close hinside range.stop (some range) he.proper rfl he.lead.le
        exact ih houter hlaid hes

/-- **The pieces of a source** are laid over the whole of it. -/
theorem pieces_laid (source : List Char) :
    Laid source 0 (width source) (pieces source) := by
  have hstart : Progress.Stands source 0 { rest := source } :=
    ⟨⟨[], rfl, rfl⟩, Lead.Between.empty ..⟩
  exact pair_laid .bottom (Laid.nil (Nat.le_refl 0)) (events_lined _ hstart)

end Source

end TestAccess
