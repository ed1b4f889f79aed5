import TestAccess.Proofs.Offset
import TestAccess.Splice
import Mathlib.Data.List.Pairwise

/-!
# When edits fit

A splice copies its source with a cursor that only moves forward. It stops at
an edit that begins behind the cursor, so what it asks of the edits depends on
the order in which they come (`Edit.Fits`). This module takes the order out of
the question: the edits of a splice are sorted first, and sorted edits fit
exactly when any two of them are **separate**, that is, when one ends before
the other begins (`Edit.fits_mergeSort_iff`). Separation does not look at the
order, and so it can be shown pair by pair.

The main statement is `exists_splice_eq_ok_iff`: a splice succeeds exactly
when all of its ranges are proper ones and its edits are separate.
-/

namespace TestAccess

/-! ## Ranges -/

namespace ByteRange

/-- **A range is proper in a source** when it does not run backwards and both
of its ends lie between characters of the source. -/
structure IsProper (source : List Char) (r : ByteRange) : Prop where
  start_le_stop : r.start ≤ r.stop
  isBoundary_start : Chars.isBoundary r.start source = true
  isBoundary_stop : Chars.isBoundary r.stop source = true

instance (source : List Char) (r : ByteRange) : Decidable (r.IsProper source) :=
  decidable_of_iff
    (r.start ≤ r.stop ∧ Chars.isBoundary r.start source = true
      ∧ Chars.isBoundary r.stop source = true)
    ⟨fun ⟨h₁, h₂, h₃⟩ => ⟨h₁, h₂, h₃⟩, fun ⟨h₁, h₂, h₃⟩ => ⟨h₁, h₂, h₃⟩⟩

/-- A proper range ends in the source. -/
theorem IsProper.stop_le_width {source : List Char} {r : ByteRange} (h : r.IsProper source) :
    r.stop ≤ Chars.width source :=
  Chars.le_width_of_isBoundary h.isBoundary_stop

/-- **The check of a range** lets the proper ranges pass, and no other. -/
theorem error?_eq_none_iff (source : List Char) (r : ByteRange) :
    r.error? source = none ↔ r.IsProper source := by
  unfold error?
  constructor
  · intro h
    split at h
    · exact absurd h (by simp)
    · rename_i hin
      split at h
      · exact absurd h (by simp)
      · rename_i hcut
        simp only [Bool.or_eq_true, decide_eq_true_eq, not_or, Bool.not_eq_true',
          Bool.not_eq_false] at hin hcut
        exact ⟨by omega, hcut.1, hcut.2⟩
  · intro h
    have hin := h.stop_le_width
    rw [if_neg (by simpa using ⟨h.start_le_stop, hin⟩),
      if_neg (by simp [h.isBoundary_start, h.isBoundary_stop])]

/-- **Two ranges are separate** when one of them ends before the other
begins. Ranges that only touch are separate. -/
def Separate (r s : ByteRange) : Prop := r.stop ≤ s.start ∨ s.stop ≤ r.start

theorem Separate.symm {r s : ByteRange} (h : r.Separate s) : s.Separate r := Or.symm h

/-- A range that lies in another. -/
def Within (r s : ByteRange) : Prop := s.start ≤ r.start ∧ r.stop ≤ s.stop

instance (r s : ByteRange) : Decidable (r.Within s) :=
  inferInstanceAs (Decidable (_ ∧ _))

theorem Within.trans {r s t : ByteRange} (h : r.Within s) (h' : s.Within t) : r.Within t :=
  ⟨Nat.le_trans h'.1 h.1, Nat.le_trans h.2 h'.2⟩

/-- What lies in two separate ranges is separate. -/
theorem Separate.mono {r s r' s' : ByteRange} (h : r.Separate s) (hr : r'.Within r)
    (hs : s'.Within s) : r'.Separate s' := by
  rcases h with h | h
  · exact Or.inl (Nat.le_trans hr.2 (Nat.le_trans h hs.1))
  · exact Or.inr (Nat.le_trans hs.2 (Nat.le_trans h hr.1))

end ByteRange

/-! ## The cursor -/

namespace Edit

/-- **The edits fit behind a cursor**: each begins where the one in front of
it has ended, or later. -/
def Fits (cursor : Nat) : List Edit → Prop
  | [] => True
  | e :: es => cursor ≤ e.range.start ∧ Fits e.range.stop es

/-- **Copying succeeds exactly when the edits fit.** -/
theorem exists_applyFrom_eq_ok_iff (cursor : Nat) (rest : List Char) (es : List Edit) :
    (∃ output, applyFrom cursor rest es = .ok output) ↔ Fits cursor es := by
  induction es generalizing cursor rest with
  | nil => exact ⟨fun _ => trivial, fun _ => ⟨rest, rfl⟩⟩
  | cons e es ih =>
    rw [Fits, ← ih e.range.stop (Chars.dropBytes (e.range.stop - cursor) rest), applyFrom]
    constructor
    · rintro ⟨output, h⟩
      split at h
      · exact absurd h (by simp)
      · rename_i hlt
        refine ⟨by omega, ?_⟩
        dsimp only at h
        split at h
        · rename_i output' h'
          exact ⟨output', h'⟩
        · exact absurd h (by simp)
    · rintro ⟨hle, output, h⟩
      rw [if_neg (by omega)]
      dsimp only
      rw [h]
      exact ⟨_, rfl⟩

/-- Edits that fit begin at the cursor or behind it, and follow one another. -/
theorem fits_iff_pairwise (cursor : Nat) (es : List Edit)
    (hes : ∀ e ∈ es, e.range.start ≤ e.range.stop) :
    Fits cursor es ↔
      (∀ e ∈ es, cursor ≤ e.range.start)
        ∧ es.Pairwise (fun a b => a.range.stop ≤ b.range.start) := by
  induction es generalizing cursor with
  | nil => simp [Fits]
  | cons e es ih =>
    have he := hes e (List.mem_cons_self ..)
    rw [Fits, ih e.range.stop (fun e' he' => hes e' (List.mem_cons_of_mem _ he')),
      List.forall_mem_cons, List.pairwise_cons]
    constructor
    · rintro ⟨hle, hall, hpair⟩
      exact ⟨⟨hle, fun e' he' => by have := hall e' he'; omega⟩, hall, hpair⟩
    · rintro ⟨⟨hle, -⟩, hall, hpair⟩
      exact ⟨hle, hall, hpair⟩

/-! ## The order of edits -/

theorem precedes_iff (a b : Edit) :
    precedes a b = true ↔
      a.range.start < b.range.start
        ∨ (a.range.start = b.range.start ∧ a.range.stop ≤ b.range.stop) := by
  simp [precedes]

theorem precedes_trans (a b c : Edit) (hab : precedes a b = true) (hbc : precedes b c = true) :
    precedes a c = true := by
  rw [precedes_iff] at *
  omega

theorem precedes_total (a b : Edit) : (precedes a b || precedes b a) = true := by
  rw [Bool.or_eq_true, precedes_iff, precedes_iff]
  omega

/-- The sorted edits are in order. -/
theorem pairwise_precedes_mergeSort (es : List Edit) :
    (es.mergeSort precedes).Pairwise (fun a b => precedes a b = true) :=
  List.pairwise_mergeSort precedes_trans precedes_total es

/-- **Of two edits in order, separation is that the first ends before the
second begins.** Two empty edits at one place end where they begin, so either
may come first. -/
theorem separate_iff_of_precedes {a b : Edit} (hb : b.range.start ≤ b.range.stop)
    (h : precedes a b = true) :
    a.range.Separate b.range ↔ a.range.stop ≤ b.range.start := by
  rw [precedes_iff] at h
  unfold ByteRange.Separate
  omega

/-- **Sorted edits fit exactly when any two of them are separate.** -/
theorem fits_mergeSort_iff (es : List Edit) (hes : ∀ e ∈ es, e.range.start ≤ e.range.stop) :
    Fits 0 (es.mergeSort precedes) ↔ es.Pairwise (fun a b => a.range.Separate b.range) := by
  have hmem : ∀ e ∈ es.mergeSort precedes, e.range.start ≤ e.range.stop := fun e he =>
    hes e (List.mem_mergeSort.mp he)
  rw [fits_iff_pairwise 0 _ hmem,
    ← (List.mergeSort_perm es precedes).pairwise_iff (fun h => h.symm)]
  have hord := pairwise_precedes_mergeSort es
  constructor
  · rintro ⟨-, hpair⟩
    exact hpair.imp (fun h => Or.inl h)
  · -- separation says nothing of which edit comes first; that is known from the sort
    intro hsep
    refine ⟨fun e _ => Nat.zero_le _, (hsep.and hord).imp_of_mem ?_⟩
    intro a b _ hb h
    exact (separate_iff_of_precedes (hmem b hb) h.2).mp h.1

end Edit

/-! ## The edits of an insertion -/

namespace Insertion

/-- An insertion has a block exactly when it has a text. -/
theorem block_eq_nil_iff (i : Insertion) : i.block = [] ↔ i.rendered = [] := by
  unfold block
  rw [List.flatMap_eq_nil_iff]
  constructor
  · intro h
    refine List.eq_nil_iff_forall_not_mem.mpr (fun text htext => ?_)
    exact absurd (h text htext) (by simp [textBlock])
  · intro h text htext
    rw [h] at htext
    exact absurd htext (List.not_mem_nil)

/-- **The edits of an insertion**: the annotation is taken out, and the block
is put behind the declaration. -/
theorem mem_edits_iff (source : List Char) (i : Insertion) (e : Edit) :
    e ∈ i.edits source ↔
      (∃ a, i.marker = some a ∧ e = { range := removal source a, replacement := [] })
        ∨ (i.rendered ≠ []
          ∧ e = { range := ⟨i.declaration.stop, i.declaration.stop⟩, replacement := i.block }) := by
  unfold edits
  rw [List.mem_append, List.mem_map]
  refine or_congr ?_ ?_
  · simp only [Option.mem_toList, eq_comm]
  · rw [ne_eq, ← block_eq_nil_iff]
    split
    · rename_i h
      simp [h]
    · rename_i h
      simp [h]

/-- **How far a removal reaches**: under the annotation, and on over the
blanks that follow it. -/
theorem lt_removal_stop_iff {source : List Char} {a : ByteRange}
    (h : Chars.isBoundary a.stop source = true) (p : Nat) :
    p < (removal source a).stop ↔
      p < a.stop ∨ (p < Chars.width source
        ∧ ∀ q c, Chars.BeginsAt source q c → a.stop ≤ q → q ≤ p → isBlank c = true) := by
  obtain ⟨front, rest, rfl, hw⟩ := (Chars.isBoundary_iff a.stop source).mp h
  show p < a.stop + Chars.width ((Chars.dropBytes a.stop (front ++ rest)).takeWhile isBlank) ↔ _
  rw [← hw, Chars.dropBytes_width, Chars.width_append]
  rcases Nat.lt_or_ge p (Chars.width front) with hp | hp
  · exact ⟨fun _ => Or.inl hp, fun _ => by omega⟩
  · obtain ⟨k, rfl⟩ := Nat.exists_eq_add_of_le hp
    rw [Nat.add_lt_add_iff_left, Chars.lt_width_takeWhile_iff, Nat.add_lt_add_iff_left]
    constructor
    · rintro ⟨hk, hall⟩
      refine Or.inr ⟨hk, fun q c hq hle hqk => ?_⟩
      obtain ⟨j, rfl⟩ := Nat.exists_eq_add_of_le hle
      exact hall j c ((Chars.beginsAt_append_right ..).mp hq) (by omega)
    · rintro (hlt | ⟨hk, hall⟩)
      · omega
      · exact ⟨hk, fun j c hj hle =>
          hall _ c ((Chars.beginsAt_append_right front ..).mpr hj) (by omega) (by omega)⟩

/-- A removal ends where the next character begins that is not blank, or in
front of it. -/
theorem removal_stop_le {source : List Char} {a : ByteRange} {p : Nat} {c : Char}
    (h : Chars.isBoundary a.stop source = true) (hp : Chars.BeginsAt source p c)
    (hc : isBlank c = false) (hle : a.stop ≤ p) : (removal source a).stop ≤ p := by
  refine Nat.le_of_not_lt (fun hlt => ?_)
  rcases (lt_removal_stop_iff h p).mp hlt with h' | ⟨-, hall⟩
  · omega
  · rw [hall p c hp hle (Nat.le_refl p)] at hc
    exact absurd hc (by simp)

/-- A removal takes out the annotation and ends between two characters. -/
theorem isProper_removal {source : List Char} {a : ByteRange} (h : a.IsProper source) :
    (removal source a).IsProper source := by
  refine ⟨Nat.le_trans h.start_le_stop (Nat.le_add_right ..), h.isBoundary_start, ?_⟩
  obtain ⟨front, rest, rfl, hw⟩ := (Chars.isBoundary_iff a.stop source).mp h.isBoundary_stop
  show Chars.isBoundary
    (a.stop + Chars.width ((Chars.dropBytes a.stop (front ++ rest)).takeWhile isBlank)) _ = true
  rw [← hw, Chars.dropBytes_width, Chars.isBoundary_width_add, Chars.isBoundary_iff]
  exact ⟨_, _, (List.takeWhile_append_dropWhile).symm, rfl⟩

/-- The ranges of an insertion are proper. -/
def IsProper (source : List Char) (i : Insertion) : Prop :=
  ∀ r ∈ i.ranges, r.IsProper source

instance (source : List Char) (i : Insertion) : Decidable (i.IsProper source) :=
  inferInstanceAs (Decidable (∀ r ∈ i.ranges, r.IsProper source))

theorem IsProper.declaration {source : List Char} {i : Insertion} (h : i.IsProper source) :
    i.declaration.IsProper source :=
  h i.declaration (List.mem_cons_self ..)

theorem IsProper.marker {source : List Char} {i : Insertion} (h : i.IsProper source)
    {a : ByteRange} (ha : i.marker = some a) : a.IsProper source :=
  h a (List.mem_cons_of_mem _ (Option.mem_toList.mpr ha))

/-- The edits of a proper insertion have proper ranges. -/
theorem IsProper.edits {source : List Char} {i : Insertion} (h : i.IsProper source) {e : Edit}
    (he : e ∈ i.edits source) : e.range.IsProper source := by
  rcases (mem_edits_iff source i e).mp he with ⟨a, ha, rfl⟩ | ⟨-, rfl⟩
  · exact isProper_removal (h.marker ha)
  · exact ⟨Nat.le_refl _, h.declaration.isBoundary_stop, h.declaration.isBoundary_stop⟩

end Insertion

/-! ## When a splice succeeds -/

/-- **The edits of a splice**, in the order of its insertions. -/
def spliceEdits (source : List Char) (insertions : List Insertion) : List Edit :=
  insertions.flatMap (Insertion.edits source)

/-- The check of a splice lets its insertions pass exactly when their ranges
are proper. -/
theorem findSome?_error?_eq_none_iff (source : List Char) (insertions : List Insertion) :
    ((insertions.flatMap Insertion.ranges).findSome? fun r => r.error? source) = none ↔
      ∀ i ∈ insertions, i.IsProper source := by
  rw [List.findSome?_eq_none_iff]
  constructor
  · intro h i hi r hr
    exact (ByteRange.error?_eq_none_iff ..).mp (h r (List.mem_flatMap.mpr ⟨i, hi, hr⟩))
  · intro h r hr
    obtain ⟨i, hi, hr⟩ := List.mem_flatMap.mp hr
    exact (ByteRange.error?_eq_none_iff ..).mpr (h i hi r hr)

/-- A splice gives an output exactly when its ranges are proper and copying
through the sorted edits gives that output. -/
theorem splice_eq_ok_iff (source : String) (insertions : List Insertion) (out : String) :
    splice source insertions = .ok out ↔
      (∀ i ∈ insertions, i.IsProper source.toList)
        ∧ Edit.applyFrom 0 source.toList
            ((spliceEdits source.toList insertions).mergeSort Edit.precedes) = .ok out.toList := by
  unfold splice spliceEdits
  rw [← findSome?_error?_eq_none_iff]
  dsimp only
  split
  · rename_i err herr
    simp [herr]
  · rename_i hnone
    rw [hnone]
    split
    · rename_i output houtput
      rw [houtput]
      simp only [true_and, Except.ok.injEq]
      constructor
      · rintro rfl
        exact (String.toList_ofList).symm
      · rintro rfl
        exact String.ofList_toList
    · rename_i err herr
      rw [herr]
      simp

/-- **A splice succeeds exactly when its ranges are proper and its edits are
separate.** -/
theorem exists_splice_eq_ok_iff (source : String) (insertions : List Insertion) :
    (∃ out, splice source insertions = .ok out) ↔
      (∀ i ∈ insertions, i.IsProper source.toList)
        ∧ (spliceEdits source.toList insertions).Pairwise
            (fun a b => a.range.Separate b.range) := by
  simp only [splice_eq_ok_iff, exists_and_left]
  refine and_congr_right (fun hproper => ?_)
  have hle : ∀ e ∈ spliceEdits source.toList insertions, e.range.start ≤ e.range.stop := by
    intro e he
    obtain ⟨i, hi, he⟩ := List.mem_flatMap.mp he
    exact ((hproper i hi).edits he).start_le_stop
  rw [← Edit.fits_mergeSort_iff _ hle,
    ← Edit.exists_applyFrom_eq_ok_iff 0 source.toList]
  constructor
  · rintro ⟨out, h⟩
    exact ⟨_, h⟩
  · rintro ⟨output, h⟩
    exact ⟨String.ofList output, by rw [String.toList_ofList]; exact h⟩

end TestAccess
