import TestAccess.Proofs.PointwiseSplice

/-!
# The order of the insertions of a splice

A splice is given its insertions as a list, and one expects that the order of
the list does not matter. There are three parts to this. Whether a splice
succeeds is a matter of its ranges, each for itself, and of its edits, pair by
pair, and neither looks at the order. When it succeeds, the output is read off
the source position by position, and a position has an order to it only where
the blocks of two insertions meet; so the output is the same as long as no
position has two blocks. And when it fails because edits overlap, it fails at
the same place: the copy stops at an edit because of the *ranges* of the edits
in front of it, and the sorted edits of two orders have the same ranges
(`map_range_mergeSort_of_perm`), although equal ranges may stand for different
edits.

The three parts are put together in `splice_of_perm`.
-/

namespace TestAccess

namespace Edit

/-! ## Where a copy stops -/

/-- **Where ranges overlap**: the beginning of the first range that begins
behind the cursor, which each range moves to its own end. -/
def overlap? (cursor : Nat) : List ByteRange → Option Nat
  | [] => none
  | r :: rs => if r.start < cursor then some r.start else overlap? r.stop rs

/-- **A copy stops where the ranges of its edits overlap**, and for no other
reason. -/
theorem applyFrom_eq_error_iff (cursor : Nat) (rest : List Char) (es : List Edit)
    (err : SpliceError) :
    applyFrom cursor rest es = .error err ↔
      ∃ n, overlap? cursor (es.map Edit.range) = some n ∧ err = .overlap n := by
  induction es generalizing cursor rest with
  | nil => simp [applyFrom, overlap?]
  | cons e es ih =>
    rw [applyFrom, List.map_cons, overlap?]
    by_cases hlt : e.range.start < cursor
    · rw [if_pos hlt, if_pos hlt]
      simp [eq_comm]
    · rw [if_neg hlt, if_neg hlt, ← ih e.range.stop (Chars.dropBytes (e.range.stop - cursor) rest)]
      dsimp only
      cases applyFrom e.range.stop (Chars.dropBytes (e.range.stop - cursor) rest) es <;> simp

/-! ## The ranges of sorted edits -/

/-- The order of edits looks at their ranges only: by where they begin, then
by where they end. -/
def rangePrecedes (r s : ByteRange) : Prop :=
  r.start < s.start ∨ (r.start = s.start ∧ r.stop ≤ s.stop)

/-- Two ranges that precede each other are equal. -/
theorem rangePrecedes_antisymm {r s : ByteRange} (h : rangePrecedes r s)
    (h' : rangePrecedes s r) : r = s := by
  obtain ⟨rstart, rstop⟩ := r
  obtain ⟨sstart, sstop⟩ := s
  unfold rangePrecedes at h h'
  dsimp only at h h'
  rw [ByteRange.mk.injEq]
  omega

/-- The ranges of sorted edits are in order. -/
theorem pairwise_rangePrecedes_mergeSort (es : List Edit) :
    ((es.mergeSort precedes).map Edit.range).Pairwise rangePrecedes :=
  List.pairwise_map.mpr ((pairwise_precedes_mergeSort es).imp fun h => (precedes_iff ..).mp h)

/-- **Two orders of the same edits have the same ranges when they are
sorted.** -/
theorem map_range_mergeSort_of_perm {es fs : List Edit} (h : es.Perm fs) :
    (es.mergeSort precedes).map Edit.range = (fs.mergeSort precedes).map Edit.range := by
  refine List.Perm.eq_of_pairwise (fun r s _ _ hrs hsr => rangePrecedes_antisymm hrs hsr)
    (pairwise_rangePrecedes_mergeSort es) (pairwise_rangePrecedes_mergeSort fs) ?_
  exact (((List.mergeSort_perm es precedes).trans h).trans
    (List.mergeSort_perm fs precedes).symm).map Edit.range

end Edit

/-! ## Insertions in another order -/

section

variable {source : String} {as bs : List Insertion}

/-- The edits of two orders of the same insertions are the same edits. -/
theorem spliceEdits_perm (source : List Char) (h : as.Perm bs) :
    (spliceEdits source as).Perm (spliceEdits source bs) :=
  h.flatMap_right (Insertion.edits source)

/-- **Whether a splice succeeds does not depend on the order.** -/
theorem exists_splice_eq_ok_iff_of_perm (source : String) (h : as.Perm bs) :
    (∃ out, splice source as = .ok out) ↔ ∃ out, splice source bs = .ok out := by
  rw [exists_splice_eq_ok_iff, exists_splice_eq_ok_iff,
    (spliceEdits_perm source.toList h).pairwise_iff fun hsep => hsep.symm]
  simp only [h.mem_iff]

/-- **No position has two blocks**: of any two insertions that have a text,
the declarations end at different places. -/
def Insertion.EndApart (insertions : List Insertion) : Prop :=
  insertions.Pairwise fun i j =>
    i.rendered ≠ [] → j.rendered ≠ [] → i.declaration.stop ≠ j.declaration.stop

instance (insertions : List Insertion) : Decidable (Insertion.EndApart insertions) :=
  inferInstanceAs (Decidable (insertions.Pairwise fun i j =>
    i.rendered ≠ [] → j.rendered ≠ [] → i.declaration.stop ≠ j.declaration.stop))

/-- Where no position has two blocks, the block at a position does not depend
on the order. -/
theorem Insertion.endingAt_of_perm (hends : Insertion.EndApart as) (h : as.Perm bs) (p : Nat) :
    Insertion.endingAt as p = Insertion.endingAt bs p := by
  have hmem : ∀ {cs : List Insertion} {i : Insertion}, i ∈ Insertion.endingAt cs p →
      i.rendered ≠ [] ∧ i.declaration.stop = p := by
    intro cs i hi
    simpa using (List.mem_filter.mp hi).2
  -- among the insertions of one position, two that end apart cannot both be
  have hpair : ∀ {cs : List Insertion}, Insertion.EndApart cs →
      (Insertion.endingAt cs p).Pairwise fun i j => i.declaration.stop ≠ j.declaration.stop :=
    fun hcs => (hcs.filter _).imp_of_mem fun hi hj hij => hij (hmem hi).1 (hmem hj).1
  have hends' : Insertion.EndApart bs :=
    (h.pairwise_iff fun hij hj hi => (hij hi hj).symm).mp hends
  refine List.Perm.eq_of_pairwise (fun i j hi hj hij _ => ?_) (hpair hends) (hpair hends')
    (h.filter _)
  exact absurd ((hmem hi).2.trans (hmem hj).2.symm) hij

/-- What a splice puts at a position does not depend on the order, where no
position has two blocks. -/
theorem spliceAt_of_perm (source : String) (hends : Insertion.EndApart as) (h : as.Perm bs)
    (p : Nat) : spliceAt source as p = spliceAt source bs p := by
  unfold spliceAt
  rw [Insertion.endingAt_of_perm hends h p]
  simp only [h.mem_iff]

/-- A text is known by its bytes. -/
theorem Text.bytes_injective {s t : String} (h : Text.bytes s = Text.bytes t) : s = t :=
  String.toByteArray_inj.mp (ByteArray.ext (Array.toList_inj.mp h))

/-- **The output of a splice does not depend on the order**, where no position
has two blocks. -/
theorem splice_eq_ok_of_perm (hends : Insertion.EndApart as) (h : as.Perm bs) {out : String}
    (hout : splice source as = .ok out) : splice source bs = .ok out := by
  obtain ⟨out', hout'⟩ := (exists_splice_eq_ok_iff_of_perm source h).mp ⟨out, hout⟩
  have hbytes : Text.bytes out = Text.bytes out' := by
    rw [bytes_splice hout, bytes_splice hout']
    exact List.flatMap_congr fun p _ => spliceAt_of_perm source hends h p
  rw [hout', Text.bytes_injective hbytes]

/-- A splice with proper ranges fails exactly where the ranges of its sorted
edits overlap. -/
theorem splice_eq_error_iff (hproper : ∀ i ∈ as, i.IsProper source.toList) (err : SpliceError) :
    splice source as = .error err ↔
      ∃ n, Edit.overlap? 0
          (((spliceEdits source.toList as).mergeSort Edit.precedes).map Edit.range) = some n
        ∧ err = .overlap n := by
  rw [← Edit.applyFrom_eq_error_iff 0 source.toList]
  unfold splice spliceEdits
  dsimp only
  rw [(findSome?_error?_eq_none_iff ..).mpr hproper]
  dsimp only
  cases Edit.applyFrom 0 source.toList
    ((as.flatMap (Insertion.edits source.toList)).mergeSort Edit.precedes) <;> simp

/-- **Edits that overlap are reported at a place that does not depend on the
order.** -/
theorem exists_splice_eq_overlap_of_perm (hproper : ∀ i ∈ as, i.IsProper source.toList)
    (hoverlap : ¬ (spliceEdits source.toList as).Pairwise fun a b => a.range.Separate b.range)
    (h : as.Perm bs) :
    ∃ n, splice source as = .error (.overlap n) ∧ splice source bs = .error (.overlap n) := by
  have hproper' : ∀ i ∈ bs, i.IsProper source.toList := fun i hi => hproper i (h.mem_iff.mpr hi)
  cases hout : splice source as with
  | ok out => exact absurd ((exists_splice_eq_ok_iff ..).mp ⟨out, hout⟩).2 hoverlap
  | error err =>
    obtain ⟨n, hn, rfl⟩ := (splice_eq_error_iff hproper err).mp hout
    refine ⟨n, rfl, (splice_eq_error_iff hproper' _).mpr ⟨n, ?_, rfl⟩⟩
    rw [← Edit.map_range_mergeSort_of_perm (spliceEdits_perm source.toList h)]
    exact hn

end

/-- **A splice does not depend on the order of its insertions.** For two
orders of the same insertions, one splice succeeds exactly when the other
does. If it does, and no position has two blocks, the two outputs are equal.
And if all ranges are proper but edits overlap, both report the overlap at the
same byte. -/
theorem splice_of_perm (source : String) (as bs : List Insertion) (h : as.Perm bs) :
    ((∃ out, splice source as = .ok out) ↔ ∃ out, splice source bs = .ok out)
      ∧ (Insertion.EndApart as →
          ∀ out, splice source as = .ok out ↔ splice source bs = .ok out)
      ∧ ((∀ i ∈ as, i.IsProper source.toList) →
          ¬ (spliceEdits source.toList as).Pairwise (fun a b => a.range.Separate b.range) →
          ∃ n, splice source as = .error (.overlap n)
            ∧ splice source bs = .error (.overlap n)) := by
  refine ⟨exists_splice_eq_ok_iff_of_perm source h, fun hends out => ⟨?_, ?_⟩,
    fun hproper hoverlap => exists_splice_eq_overlap_of_perm hproper hoverlap h⟩
  · exact splice_eq_ok_of_perm hends h
  · refine splice_eq_ok_of_perm ?_ h.symm
    exact (h.pairwise_iff fun hij hj hi => (hij hi hj).symm).mp hends

/-- Two insertions at one place: the first takes out an empty annotation where
the block of the second goes. -/
def touchingInsertions : List Insertion :=
  [{ declaration := ⟨0, 4⟩, marker := some ⟨1, 1⟩, rendered := ["z"] },
    { declaration := ⟨0, 1⟩, rendered := ["y"] }]

/-- Two insertions that take out parts of one annotation. -/
def overlappingInsertions : List Insertion :=
  [{ declaration := ⟨0, 4⟩, marker := some ⟨0, 3⟩ },
    { declaration := ⟨0, 4⟩, marker := some ⟨1, 2⟩ }]

/-- Where an empty removal and a block have one range, the outputs of both
orders are equal; where two removals overlap, both orders report it at the
same byte. -/
theorem splice_of_perm_touching :
    (splice "ab c" touchingInsertions = .ok "a\n\nyb c\n\nz"
        ∧ splice "ab c" touchingInsertions.reverse = .ok "a\n\nyb c\n\nz")
      ∧ ∃ n, splice "ab c" overlappingInsertions = .error (.overlap n)
          ∧ splice "ab c" overlappingInsertions.reverse = .error (.overlap n) := by
  -- the edits of the reversed list are in order already
  have h : splice "ab c" touchingInsertions.reverse = .ok "a\n\nyb c\n\nz" := by
    rw [splice_eq_ok_iff, List.mergeSort_of_pairwise (by decide +kernel)]
    exact ⟨by decide +kernel, by decide +kernel⟩
  obtain ⟨-, hequal, -⟩ :=
    splice_of_perm "ab c" _ _ (List.reverse_perm touchingInsertions).symm
  obtain ⟨-, -, herror⟩ :=
    splice_of_perm "ab c" _ _ (List.reverse_perm overlappingInsertions).symm
  refine ⟨⟨(hequal (by decide +kernel) _).mpr h, h⟩, herror (by decide +kernel) ?_⟩
  unfold ByteRange.Separate
  decide +kernel

end TestAccess
