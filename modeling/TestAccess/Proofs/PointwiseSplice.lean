import TestAccess.Proofs.Edits
import Mathlib.Data.List.Intervals

/-!
# A splice, byte by byte

The code of a splice sorts a mixed list of removals and insertions and copies
the source between them. What it *does* can be said without an order and
without a cursor: the output is read off the source position by position, and
at each position stand the blocks that belong there, followed by the byte of
the source unless some annotation takes it out (`spliceAt`).

The two meet in the middle. `Edit.placeAt` says what a list of edits puts at a
position, and `Edit.bytes_applyFrom` is the invariant of the copy: from a
cursor on, the output is what the edits that are left put at the positions
that are left. The step of the induction cuts these positions at the two ends
of the next edit. The second half of the module is about the edits of
insertions. Sorting does not change what they put at a position, because the
edits that put something there have the same range and keep their order
(`filter_mergeSort`).
-/

namespace TestAccess

/-! ## The order of a sort -/

/-- **Sorting is stable**: elements that may stand in any order among each
other keep the order they had. -/
theorem filter_mergeSort {α : Type} {le : α → α → Bool}
    (htrans : ∀ a b c, le a b = true → le b c = true → le a c = true)
    (htotal : ∀ a b, (le a b || le b a) = true) (q : α → Bool)
    (hq : ∀ a b, q a = true → q b = true → le a b = true) (l : List α) :
    (l.mergeSort le).filter q = l.filter q := by
  have hsorted : (l.filter q).Pairwise (fun a b => le a b = true) :=
    List.pairwise_of_forall_mem_list (fun a ha b hb =>
      hq a b (List.mem_filter.mp ha).2 (List.mem_filter.mp hb).2)
  have hsub : (l.filter q).Sublist (l.mergeSort le) :=
    List.sublist_mergeSort htrans htotal hsorted List.filter_sublist
  -- a part of the sorted list in the order it had, and as long as the whole of it
  have hfilter : (l.filter q).Sublist ((l.mergeSort le).filter q) := by
    simpa only [List.filter_filter, Bool.and_self] using hsub.filter q
  exact (hfilter.eq_of_length
    ((List.mergeSort_perm l le).filter q).length_eq.symm).symm

/-! ## What edits put at a position -/

/-- The items of a list at the positions of an interval. -/
theorem flatMap_getElem?_Ico {α : Type} (l : List α) {a b : Nat} (hab : a ≤ b) :
    (List.Ico a b).flatMap (fun p => l[p]?.toList) = (l.take b).drop a := by
  induction b, hab using Nat.le_induction with
  | base => rw [List.Ico.self_empty, List.flatMap_nil, List.drop_eq_nil_of_le (by simp)]
  | succ b hab ih =>
    rw [List.Ico.succ_top hab, List.flatMap_append, ih, List.flatMap_singleton, List.take_add_one,
      List.drop_append]
    refine congrArg _ ?_
    rcases Nat.lt_or_ge b l.length with hb | hb
    · rw [List.length_take, Nat.min_eq_left (Nat.le_of_lt hb), Nat.sub_eq_zero_of_le hab,
        List.drop_zero]
    · rw [List.getElem?_eq_none hb, Option.toList_none, List.drop_nil]

namespace Edit

/-- An edit takes out the byte at a position. -/
def covers (e : Edit) (p : Nat) : Bool := e.range.start ≤ p && p < e.range.stop

/-- The bytes that empty edits put in at a position. -/
def insertedAt (es : List Edit) (p : Nat) : List UInt8 :=
  (es.filter (fun e => e.range = ⟨p, p⟩)).flatMap (fun e => Chars.bytes e.replacement)

/-- The byte of the source at a position, unless an edit takes it out. -/
def keptAt (source : List UInt8) (es : List Edit) (p : Nat) : List UInt8 :=
  if es.any (fun e => e.covers p) then [] else source[p]?.toList

/-- **What edits put at a position**: the texts that are put in there, then
what is left of the source. -/
def placeAt (source : List UInt8) (es : List Edit) (p : Nat) : List UInt8 :=
  insertedAt es p ++ keptAt source es p

theorem insertedAt_append (as bs : List Edit) (p : Nat) :
    insertedAt (as ++ bs) p = insertedAt as p ++ insertedAt bs p := by
  unfold insertedAt
  rw [List.filter_append, List.flatMap_append]

theorem covers_iff (e : Edit) (p : Nat) :
    e.covers p = true ↔ e.range.start ≤ p ∧ p < e.range.stop := by
  unfold covers
  rw [Bool.and_eq_true, decide_eq_true_iff, decide_eq_true_iff]

/-- In front of the first edit stands the source. -/
theorem placeAt_of_lt (source : List UInt8) (es : List Edit) {p : Nat}
    (h : ∀ e ∈ es, p < e.range.start) : placeAt source es p = source[p]?.toList := by
  have hins : insertedAt es p = [] := by
    unfold insertedAt
    rw [List.filter_eq_nil_iff.mpr (fun e he => ?_), List.flatMap_nil]
    rw [decide_eq_true_iff]
    intro hrange
    have := h e he
    rw [hrange] at this
    exact absurd this (Nat.lt_irrefl p)
  have hkept : keptAt source es p = source[p]?.toList := by
    unfold keptAt
    rw [if_neg]
    intro hany
    obtain ⟨e, he, hcov⟩ := List.any_eq_true.mp hany
    exact absurd ((covers_iff e p).mp hcov).1 (Nat.not_le_of_lt (h e he))
  rw [placeAt, hins, hkept, List.nil_append]

/-- An edit adds nothing to a position that it neither covers nor fills. -/
theorem placeAt_cons_of_ne (source : List UInt8) (e : Edit) (es : List Edit) {p : Nat}
    (hne : e.range ≠ ⟨p, p⟩) (hcov : e.covers p = false) :
    placeAt source (e :: es) p = placeAt source es p := by
  unfold placeAt insertedAt keptAt
  rw [List.filter_cons_of_neg (by simpa using hne), List.any_cons, hcov, Bool.false_or]

/-- An empty edit puts its text in front of what the others put there. -/
theorem placeAt_cons_of_eq (source : List UInt8) (e : Edit) (es : List Edit) {p : Nat}
    (heq : e.range = ⟨p, p⟩) :
    placeAt source (e :: es) p = Chars.bytes e.replacement ++ placeAt source es p := by
  have hcov : e.covers p = false := by
    unfold covers
    rw [heq, decide_eq_false (Nat.lt_irrefl p), Bool.and_false]
  unfold placeAt insertedAt keptAt
  rw [List.filter_cons_of_pos (by simpa using heq), List.any_cons, hcov, Bool.false_or,
    List.flatMap_cons, List.append_assoc]

/-- Nothing is left of a position that an edit covers, if the others begin
behind it. -/
theorem placeAt_cons_of_covers (source : List UInt8) (e : Edit) (es : List Edit) {p : Nat}
    (hcov : e.covers p = true) (hes : ∀ e' ∈ es, e.range.stop ≤ e'.range.start) :
    placeAt source (e :: es) p = [] := by
  obtain ⟨hle, hlt⟩ := (covers_iff e p).mp hcov
  unfold placeAt insertedAt keptAt
  rw [List.any_cons, hcov, Bool.true_or, if_pos rfl, List.append_nil,
    List.filter_eq_nil_iff.mpr (fun e' he' => ?_), List.flatMap_nil]
  rw [decide_eq_true_iff]
  intro hrange
  rcases List.mem_cons.mp he' with rfl | he'
  · rw [hrange] at hlt
    exact absurd hlt (Nat.lt_irrefl p)
  · have := hes e' he'
    rw [hrange] at this
    exact absurd (Nat.lt_of_lt_of_le hlt this) (Nat.lt_irrefl p)

/-! ## The copy -/

/-- **An edit either takes out or puts in**: what it puts in, it puts in at
one place. -/
def IsPlain (e : Edit) : Prop := e.range.start < e.range.stop → e.replacement = []

/-- What the next edit and those behind it put at the positions from the next
edit on. -/
theorem flatMap_placeAt_cons (source : List UInt8) (e : Edit) (es : List Edit) {n : Nat}
    (hplain : e.IsPlain) (hle : e.range.start ≤ e.range.stop) (hn : e.range.stop < n)
    (hes : ∀ e' ∈ es, e.range.stop ≤ e'.range.start) :
    (List.Ico e.range.start n).flatMap (placeAt source (e :: es))
      = Chars.bytes e.replacement
        ++ (List.Ico e.range.stop n).flatMap (placeAt source es) := by
  rcases Nat.eq_or_lt_of_le hle with heq | hlt
  · -- an empty edit fills its own position and leaves the ones behind it alone
    have hrange : e.range = ⟨e.range.stop, e.range.stop⟩ := by
      rw [show e.range = ⟨e.range.start, e.range.stop⟩ from rfl, heq]
    rw [heq, List.Ico.eq_cons hn, List.flatMap_cons, List.flatMap_cons,
      placeAt_cons_of_eq source e es hrange, List.append_assoc]
    refine congrArg _ (congrArg _ (List.flatMap_congr (fun p hp => ?_)))
    have hp := (List.Ico.mem.mp hp).1
    refine placeAt_cons_of_ne source e es (fun h => ?_) ?_
    · rw [h] at hp
      exact absurd hp (Nat.not_succ_le_self p)
    · refine Bool.eq_false_iff.mpr (fun hcov => ?_)
      have := ((covers_iff e p).mp hcov).2
      omega
  · -- a removal leaves nothing of what it covers
    rw [hplain hlt, Chars.bytes_nil, List.nil_append,
      ← List.Ico.append_consecutive hle (Nat.le_of_lt hn), List.flatMap_append]
    have hcovered : (List.Ico e.range.start e.range.stop).flatMap (placeAt source (e :: es))
        = [] := by
      refine List.flatMap_eq_nil_iff.mpr (fun p hp => ?_)
      exact placeAt_cons_of_covers source e es
        ((covers_iff e p).mpr (List.Ico.mem.mp hp)) hes
    rw [hcovered, List.nil_append]
    refine List.flatMap_congr (fun p hp => ?_)
    have hp := (List.Ico.mem.mp hp).1
    refine placeAt_cons_of_ne source e es (fun h => ?_) ?_
    · rw [h] at hlt
      exact absurd hlt (Nat.lt_irrefl p)
    · refine Bool.eq_false_iff.mpr (fun hcov => ?_)
      exact absurd ((covers_iff e p).mp hcov).2 (Nat.not_lt_of_le hp)

/-- **The copy, position by position**: from the cursor on, the output is what
the edits put at each position. -/
theorem bytes_applyFrom {source : List Char} {cursor : Nat} {es : List Edit}
    {output : List Char} (hcursor : Chars.isBoundary cursor source = true)
    (hproper : ∀ e ∈ es, e.range.IsProper source) (hplain : ∀ e ∈ es, e.IsPlain)
    (h : applyFrom cursor (Chars.dropBytes cursor source) es = .ok output) :
    Chars.bytes output
      = (List.Ico cursor (Chars.width source + 1)).flatMap
          (placeAt (Chars.bytes source) es) := by
  have hend : cursor ≤ Chars.width source + 1 :=
    Nat.le_succ_of_le (Chars.le_width_of_isBoundary hcursor)
  induction es generalizing cursor output with
  | nil =>
    obtain rfl := Except.ok.inj h
    rw [Chars.bytes_dropBytes hcursor,
      List.flatMap_congr (fun p _ => placeAt_of_lt (Chars.bytes source) [] (by simp)),
      flatMap_getElem?_Ico _ hend, List.take_of_length_le (by simp)]
  | cons e es ih =>
    have hfits := (exists_applyFrom_eq_ok_iff ..).mp ⟨output, h⟩
    obtain ⟨hfirst, hpair⟩ :=
      (fits_iff_pairwise cursor (e :: es) (fun e' he' => (hproper e' he').start_le_stop)).mp hfits
    have hle := hfirst e (List.mem_cons_self ..)
    have he := hproper e (List.mem_cons_self ..)
    have hrest := (List.pairwise_cons.mp hpair).1
    have hstop : e.range.stop < Chars.width source + 1 := Nat.lt_succ_of_le he.stop_le_width
    -- the copy writes the source up to the edit and the edit's text, and goes on at its end
    rw [applyFrom, if_neg (Nat.not_lt_of_le hle)] at h
    dsimp only at h
    rw [Chars.dropBytes_dropBytes hcursor (Nat.le_trans hle he.start_le_stop)] at h
    split at h
    · rename_i output' houtput'
      obtain rfl := Except.ok.inj h
      have hkept : Chars.bytes
          (Chars.takeBytes (e.range.start - cursor) (Chars.dropBytes cursor source))
          = (List.Ico cursor e.range.start).flatMap
              (placeAt (Chars.bytes source) (e :: es)) := by
        rw [Chars.bytes_takeBytes (Chars.isBoundary_sub hcursor he.isBoundary_start hle),
          Chars.bytes_dropBytes hcursor, ← List.drop_take, ← flatMap_getElem?_Ico _ hle]
        refine List.flatMap_congr (fun p hp => (placeAt_of_lt _ _ (fun e' he' => ?_)).symm)
        have hp := (List.Ico.mem.mp hp).2
        rcases List.mem_cons.mp he' with rfl | he'
        · exact hp
        · exact Nat.lt_of_lt_of_le hp (Nat.le_trans he.start_le_stop (hrest e' he'))
      have hbehind := ih he.isBoundary_stop
        (fun e' he' => hproper e' (List.mem_cons_of_mem _ he'))
        (fun e' he' => hplain e' (List.mem_cons_of_mem _ he')) houtput' (Nat.le_of_lt hstop)
      rw [Chars.bytes_append, Chars.bytes_append, hkept, hbehind, List.append_assoc,
        ← flatMap_placeAt_cons _ e es (hplain e (List.mem_cons_self ..)) he.start_le_stop hstop
          hrest,
        ← List.flatMap_append,
        List.Ico.append_consecutive hle (Nat.le_trans he.start_le_stop (Nat.le_of_lt hstop))]
    · exact absurd h (by simp)

end Edit

/-! ## What insertions put at a position -/

namespace Insertion

/-- **An insertion takes out the byte at a position** of the source: the
position is at or behind the beginning of its annotation, and no character
that is not blank begins from the end of the annotation up to there. -/
def Removes (source : List Char) (i : Insertion) (p : Nat) : Prop :=
  ∃ a ∈ i.marker, a.start ≤ p ∧ p < Chars.width source
    ∧ ∀ c ∈ Chars.slice source a.stop (p + 1), isBlank c = true

instance (source : List Char) (i : Insertion) (p : Nat) : Decidable (i.Removes source p) :=
  decidable_of_iff
    (∃ a ∈ i.marker, a.start ≤ p ∧ p < Chars.width source
      ∧ (Chars.slice source a.stop (p + 1)).all isBlank = true)
    (by simp only [Removes, List.all_eq_true])

/-- A proper insertion takes out what its removal covers. -/
theorem removes_iff {source : List Char} {i : Insertion} (hi : i.IsProper source) (p : Nat) :
    i.Removes source p ↔
      ∃ a, i.marker = some a ∧ a.start ≤ p ∧ p < (removal source a).stop := by
  refine exists_congr (fun a => and_congr_right (fun ha => and_congr_right (fun _ => ?_)))
  have hstop := (hi.marker ha).isBoundary_stop
  have hwidth := (hi.marker ha).stop_le_width
  rw [lt_removal_stop_iff hstop]
  simp only [Chars.mem_slice_iff hstop]
  constructor
  · rintro ⟨hlt, hall⟩
    exact Or.inr ⟨hlt, fun q c hq hle hqp => hall c ⟨q, hq, hle, Nat.lt_succ_of_le hqp⟩⟩
  · rintro (hlt | ⟨hlt, hall⟩)
    · refine ⟨Nat.lt_of_lt_of_le hlt hwidth, fun c hc => ?_⟩
      obtain ⟨q, -, hle, hqp⟩ := hc
      omega
    · refine ⟨hlt, fun c hc => ?_⟩
      obtain ⟨q, hq, hle, hqp⟩ := hc
      exact hall q c hq hle (Nat.le_of_lt_succ hqp)

/-- **The insertions whose block belongs at a position**: those that have a
text and whose declaration ends there, in order. -/
def endingAt (insertions : List Insertion) (p : Nat) : List Insertion :=
  insertions.filter (fun i => i.rendered ≠ [] && i.declaration.stop = p)

/-- The empty edits of an insertion at a position put in its block, if it
belongs there. -/
theorem insertedAt_edits (source : List Char) (i : Insertion) (p : Nat) :
    Edit.insertedAt (i.edits source) p
      = if i.rendered ≠ [] && i.declaration.stop = p then Chars.bytes i.block else [] := by
  have hremoval : ∀ r : List ByteRange, Edit.insertedAt
      (r.map (fun a => { range := removal source a, replacement := [] })) p = [] := by
    intro r
    refine List.flatMap_eq_nil_iff.mpr (fun e he => ?_)
    obtain ⟨a, -, rfl⟩ := List.mem_map.mp (List.mem_filter.mp he).1
    rfl
  unfold edits
  rw [Edit.insertedAt_append, hremoval, List.nil_append]
  by_cases hblock : i.block = []
  · have hrendered := (block_eq_nil_iff i).mp hblock
    rw [if_pos hblock, hrendered]
    rfl
  · have hrendered : i.rendered ≠ [] := fun h => hblock ((block_eq_nil_iff i).mpr h)
    rw [if_neg hblock, decide_eq_true hrendered, Bool.true_and]
    by_cases hp : i.declaration.stop = p
    · rw [hp]
      simp [Edit.insertedAt]
    · simp [Edit.insertedAt, hp]

end Insertion

/-- What the edits of a splice put in at a position are the blocks that belong
there, in the order of the insertions. -/
theorem insertedAt_spliceEdits (source : List Char) (insertions : List Insertion) (p : Nat) :
    Edit.insertedAt (spliceEdits source insertions) p
      = (Insertion.endingAt insertions p).flatMap (fun i => Chars.bytes i.block) := by
  induction insertions with
  | nil => rfl
  | cons i insertions ih =>
    rw [show spliceEdits source (i :: insertions)
        = i.edits source ++ spliceEdits source insertions from List.flatMap_cons,
      Edit.insertedAt_append, ih, Insertion.insertedAt_edits]
    unfold Insertion.endingAt
    rw [List.filter_cons]
    split
    · rw [List.flatMap_cons]
    · rw [List.nil_append]

/-- The edits of a splice either take out or put in. -/
theorem isPlain_of_mem_spliceEdits {source : List Char} {insertions : List Insertion} {e : Edit}
    (he : e ∈ spliceEdits source insertions) : e.IsPlain := by
  obtain ⟨i, -, he⟩ := List.mem_flatMap.mp he
  rcases (Insertion.mem_edits_iff source i e).mp he with ⟨a, -, rfl⟩ | ⟨-, rfl⟩
  · exact fun _ => rfl
  · exact fun h => absurd h (Nat.lt_irrefl _)

/-- A byte is taken out by an edit of a splice exactly when an insertion takes
it out. -/
theorem any_covers_spliceEdits_iff {source : List Char} {insertions : List Insertion}
    (hproper : ∀ i ∈ insertions, i.IsProper source) (p : Nat) :
    (∃ e ∈ spliceEdits source insertions, e.covers p = true) ↔
      ∃ i ∈ insertions, i.Removes source p := by
  constructor
  · rintro ⟨e, he, hcov⟩
    obtain ⟨i, hi, he⟩ := List.mem_flatMap.mp he
    refine ⟨i, hi, (Insertion.removes_iff (hproper i hi) p).mpr ?_⟩
    obtain ⟨hle, hlt⟩ := (Edit.covers_iff e p).mp hcov
    rcases (Insertion.mem_edits_iff source i e).mp he with ⟨a, ha, rfl⟩ | ⟨-, rfl⟩
    · exact ⟨a, ha, hle, hlt⟩
    · exact absurd (Nat.lt_of_le_of_lt hle hlt) (Nat.lt_irrefl _)
  · rintro ⟨i, hi, hremoves⟩
    obtain ⟨a, ha, hle, hlt⟩ := (Insertion.removes_iff (hproper i hi) p).mp hremoves
    refine ⟨{ range := Insertion.removal source a, replacement := [] }, ?_, ?_⟩
    · exact List.mem_flatMap.mpr
        ⟨i, hi, (Insertion.mem_edits_iff source i _).mpr (Or.inl ⟨a, ha, rfl⟩)⟩
    · exact (Edit.covers_iff _ p).mpr ⟨hle, hlt⟩

/-! ## The splice -/

/-- **What a splice puts at a position**: the blocks of the insertions whose
declaration ends there, in the order of the insertions, then the byte of the
source, unless an insertion takes it out. -/
def spliceAt (source : String) (insertions : List Insertion) (p : Nat) : List UInt8 :=
  (Insertion.endingAt insertions p).flatMap (fun i => Chars.bytes i.block)
    ++ if ∃ i ∈ insertions, i.Removes source.toList p then [] else (Text.bytes source)[p]?.toList

/-- Sorting does not change what the edits of a splice put at a position. -/
theorem placeAt_mergeSort_spliceEdits {source : String} {insertions : List Insertion}
    (hproper : ∀ i ∈ insertions, i.IsProper source.toList) (p : Nat) :
    Edit.placeAt (Chars.bytes source.toList)
        ((spliceEdits source.toList insertions).mergeSort Edit.precedes) p
      = spliceAt source insertions p := by
  have hsame : ∀ a b : Edit, (decide (a.range = ⟨p, p⟩)) = true →
      (decide (b.range = ⟨p, p⟩)) = true → Edit.precedes a b = true := by
    intro a b ha hb
    rw [decide_eq_true_iff] at ha hb
    rw [Edit.precedes_iff, ha, hb]
    exact Or.inr ⟨rfl, Nat.le_refl p⟩
  have hinserted : Edit.insertedAt
        ((spliceEdits source.toList insertions).mergeSort Edit.precedes) p
      = (Insertion.endingAt insertions p).flatMap (fun i => Chars.bytes i.block) := by
    rw [← insertedAt_spliceEdits source.toList, Edit.insertedAt,
      filter_mergeSort Edit.precedes_trans Edit.precedes_total _ hsame]
    rfl
  have hcovered : ((spliceEdits source.toList insertions).mergeSort Edit.precedes).any
        (fun e => e.covers p) = true ↔ ∃ i ∈ insertions, i.Removes source.toList p := by
    rw [List.any_eq_true, ← any_covers_spliceEdits_iff hproper]
    simp only [List.mem_mergeSort]
  rw [Edit.placeAt, hinserted, Edit.keptAt, spliceAt, Text.bytes_eq]
  simp only [hcovered]

/-- **A splice, position by position.** -/
theorem bytes_splice {source : String} {insertions : List Insertion} {out : String}
    (h : splice source insertions = .ok out) :
    Text.bytes out
      = (List.range ((Text.bytes source).length + 1)).flatMap
          (spliceAt source insertions) := by
  obtain ⟨hproper, happly⟩ := (splice_eq_ok_iff ..).mp h
  have hedits : ∀ e ∈ (spliceEdits source.toList insertions).mergeSort Edit.precedes,
      e ∈ spliceEdits source.toList insertions := fun e he => List.mem_mergeSort.mp he
  have hrange : ∀ e ∈ spliceEdits source.toList insertions,
      e.range.IsProper source.toList := by
    intro e he
    obtain ⟨i, hi, he⟩ := List.mem_flatMap.mp he
    exact (hproper i hi).edits he
  have hzero : Chars.isBoundary 0 source.toList = true :=
    (Chars.isBoundary_iff ..).mpr ⟨[], source.toList, rfl, rfl⟩
  have hcopy := Edit.bytes_applyFrom hzero (fun e he => hrange e (hedits e he))
    (fun e he => isPlain_of_mem_spliceEdits (hedits e he))
    (by rw [Chars.dropBytes_zero]; exact happly)
  rw [Text.bytes_eq, hcopy, List.Ico.zero_bot, Text.length_bytes]
  exact List.flatMap_congr (fun p _ => placeAt_mergeSort_spliceEdits hproper p)

/-- Elements put into the places that a key gives them are all of them, in
another order. -/
theorem perm_flatMap_range_filter {α : Type} (key : α → Nat) (l : List α) (n : Nat) :
    ((List.range n).flatMap (fun p => l.filter (fun a => key a = p))).Perm
      (l.filter (fun a => key a < n)) := by
  induction n with
  | zero =>
    rw [List.range_zero, List.flatMap_nil, List.filter_eq_nil_iff.mpr (by simp)]
  | succ n ih =>
    rw [List.range_succ, List.flatMap_append, List.flatMap_singleton]
    refine (ih.append_right _).trans ?_
    -- the keys below `n + 1` are those below `n`, and `n`
    refine List.Perm.trans (List.Perm.of_eq ?_)
      (List.filter_append_perm (fun a => key a < n) (l.filter (fun a => key a < n + 1)))
    rw [List.filter_filter, List.filter_filter]
    refine congrArg₂ _ (List.filter_congr (fun a _ => ?_)) (List.filter_congr (fun a _ => ?_))
    · rw [Bool.eq_iff_iff, Bool.and_eq_true, decide_eq_true_iff, decide_eq_true_iff]
      omega
    · rw [Bool.eq_iff_iff, Bool.and_eq_true, Bool.not_eq_true', decide_eq_true_iff,
        decide_eq_false_iff_not, decide_eq_true_iff]
      omega

/-- Every block has its position in the source. -/
theorem perm_flatMap_endingAt {source : List Char} {insertions : List Insertion}
    (hproper : ∀ i ∈ insertions, i.IsProper source) :
    ((List.range (Chars.width source + 1)).flatMap (Insertion.endingAt insertions)).Perm
      (insertions.filter (fun i => i.rendered ≠ [])) := by
  have hall : (insertions.filter (fun i => i.rendered ≠ [])).filter
        (fun i => i.declaration.stop < Chars.width source + 1)
      = insertions.filter (fun i => i.rendered ≠ []) := by
    refine List.filter_eq_self.mpr (fun i hi => decide_eq_true (Nat.lt_succ_of_le ?_))
    exact (hproper i (List.mem_filter.mp hi).1).declaration.stop_le_width
  have hperm := perm_flatMap_range_filter (fun i : Insertion => i.declaration.stop)
    (insertions.filter (fun i => i.rendered ≠ [])) (Chars.width source + 1)
  rw [hall] at hperm
  refine List.Perm.trans (List.Perm.of_eq (List.flatMap_congr (fun p _ => ?_))) hperm
  rw [Insertion.endingAt, List.filter_filter]
  exact List.filter_congr (fun i _ => Bool.and_comm ..)

/-- **A splice is its pointwise reading.** The bytes of the output are, for
each position of the source up to its end, the blocks that belong there and
the byte that is left there; each block belongs at exactly one position; and
without insertions the source comes back as it was. -/
theorem splice_eq_pointwise (source : String) (insertions : List Insertion) :
    (∀ out, splice source insertions = .ok out →
        Text.bytes out
            = (List.range ((Text.bytes source).length + 1)).flatMap (spliceAt source insertions)
          ∧ ((List.range ((Text.bytes source).length + 1)).flatMap
              (Insertion.endingAt insertions)).Perm
              (insertions.filter (fun i => i.rendered ≠ [])))
      ∧ splice source [] = .ok source := by
  refine ⟨fun out h => ⟨bytes_splice h, ?_⟩, ?_⟩
  · rw [Text.length_bytes]
    exact perm_flatMap_endingAt ((splice_eq_ok_iff ..).mp h).1
  · rw [splice_eq_ok_iff]
    refine ⟨fun i hi => absurd hi (List.not_mem_nil), ?_⟩
    rw [spliceEdits, List.flatMap_nil, List.mergeSort_nil]
    rfl

/-- Two insertions that meet: the first ends where the annotation of the
second begins. -/
def meetingInsertions : List Insertion :=
  [{ declaration := ⟨0, 1⟩, rendered := ["y"] },
    { declaration := ⟨1, 5⟩, marker := some ⟨1, 3⟩, rendered := ["z"] }]

/-- Where a block and a removal meet, the block is written and the annotation
taken out. -/
theorem splice_eq_pointwise_meeting :
    splice "a@V b" meetingInsertions = .ok "a\n\nyb\n\nz"
      ∧ Text.bytes "a\n\nyb\n\nz"
        = (List.range ((Text.bytes "a@V b").length + 1)).flatMap
            (spliceAt "a@V b" meetingInsertions) := by
  have h : splice "a@V b" meetingInsertions = .ok "a\n\nyb\n\nz" := by
    rw [splice_eq_ok_iff, List.mergeSort_of_pairwise (by decide +kernel)]
    exact ⟨by decide +kernel, by decide +kernel⟩
  exact ⟨h, ((splice_eq_pointwise "a@V b" meetingInsertions).1 _ h).1⟩

end TestAccess
