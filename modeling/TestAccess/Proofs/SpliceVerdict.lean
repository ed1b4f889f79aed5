import TestAccess.Proofs.SpliceOrder

/-!
# Which splices are accepted, and what the others report

A splice tests each edit against the cursor that the edit in front of it has
left behind. This looks at neighbours only, and yet it decides about all
pairs: up to the first edit that fails the test, the cursor stands at the
furthest end that any edit has had so far (`Edit.overlap?_eq_some_iff`). So the
edits of an accepted splice are separate in pairs, and a rejected splice
reports the first edit that begins before the furthest end of the edits in
front of it.

What a splice reports can therefore be said without a cursor and without a
sort, as the relation `SpliceError.Reported` between the ranges that are asked
for and the error: a range that is not proper comes first, in the order of the
insertions, and only then an overlap.

The cuts of a splice are defined for every offset, also for one outside the
source or inside a character. `Guarded.splice` is the same splice with cuts
that stop the program at such an offset. It never stops
(`Guarded.splice_eq`): the cursor is always a boundary, and so are the ends of
an edit whose range has been checked.
-/

namespace TestAccess

/-! ## Ranges that are not proper -/

namespace ByteRange

/-- **A range is outside a source** when it runs backwards, or past the end. -/
def IsOutside (source : List Char) (r : ByteRange) : Prop :=
  r.stop < r.start ∨ Chars.width source < r.stop

/-- A range is proper when it is not outside, and neither of its ends splits a
character. -/
theorem isProper_iff (source : List Char) (r : ByteRange) :
    r.IsProper source ↔
      ¬ r.IsOutside source ∧ Chars.isBoundary r.start source = true
        ∧ Chars.isBoundary r.stop source = true := by
  unfold IsOutside
  constructor
  · intro h
    have hstart := h.start_le_stop
    have hstop := h.stop_le_width
    exact ⟨by omega, h.isBoundary_start, h.isBoundary_stop⟩
  · rintro ⟨hin, hstart, hstop⟩
    exact ⟨by omega, hstart, hstop⟩

/-- **What the check of a range reports**: that it is outside, or else that one
of its ends splits a character. -/
theorem error?_eq_some_iff (source : List Char) (r : ByteRange) (err : SpliceError) :
    r.error? source = some err ↔
      (r.IsOutside source ∧ err = .outside r (Chars.width source))
        ∨ (¬ r.IsOutside source ∧ ¬ r.IsProper source ∧ err = .splitsCharacter r) := by
  by_cases hout : r.IsOutside source
  · have herr : r.error? source = some (.outside r (Chars.width source)) := by
      unfold error?
      rw [if_pos (by simpa [IsOutside] using hout)]
    rw [herr, Option.some.injEq, eq_comm]
    simp only [hout, true_and, not_true_eq_false, false_and, or_false]
  · have herr : r.error? source = if r.IsProper source then none else some (.splitsCharacter r) := by
      unfold error?
      rw [if_neg (by simpa [IsOutside] using hout)]
      by_cases hproper : r.IsProper source
      · rw [if_pos hproper, if_neg (by simp [hproper.isBoundary_start, hproper.isBoundary_stop])]
      · rw [if_neg hproper, if_pos]
        rw [isProper_iff] at hproper
        simpa [hout, imp_iff_not_or] using hproper
    rw [herr]
    by_cases hproper : r.IsProper source
    · simp [hout, hproper]
    · simp [hout, hproper, eq_comm]

/-! ## Where ranges first overlap -/

/-- **The furthest end** of ranges, or where the cursor stands if that is
further. -/
def furthest (cursor : Nat) (rs : List ByteRange) : Nat :=
  rs.foldl (fun reached r => max reached r.stop) cursor

/-- **A range overlaps those in front of it**, and is the first one to do so:
it begins before their furthest end, and each of them begins at the furthest
end of those in front of itself, or behind it. -/
structure OverlapsFirst (cursor : Nat) (front : List ByteRange) (r : ByteRange) : Prop where
  start_lt : r.start < furthest cursor front
  furthest_le : ∀ before q after, front = before ++ q :: after → furthest cursor before ≤ q.start

/-- In front of the first range stands the cursor alone. -/
theorem overlapsFirst_nil_iff (cursor : Nat) (r : ByteRange) :
    OverlapsFirst cursor [] r ↔ r.start < cursor := by
  refine ⟨fun h => h.start_lt, fun h => ⟨h, fun before q after hfront => ?_⟩⟩
  exact absurd hfront (by simp)

/-- A range in front that does not overlap moves the cursor to its end. -/
theorem overlapsFirst_cons_iff {cursor : Nat} {q : ByteRange} (hq : q.start ≤ q.stop)
    (front : List ByteRange) (r : ByteRange) :
    OverlapsFirst cursor (q :: front) r ↔
      cursor ≤ q.start ∧ OverlapsFirst q.stop front r := by
  have hcons : cursor ≤ q.start → ∀ rs, furthest cursor (q :: rs) = furthest q.stop rs := by
    intro hle rs
    unfold furthest
    rw [List.foldl_cons, Nat.max_eq_right (Nat.le_trans hle hq)]
  constructor
  · intro h
    have hle : cursor ≤ q.start := h.furthest_le [] q front rfl
    refine ⟨hle, by rw [← hcons hle]; exact h.start_lt, fun before p after hfront => ?_⟩
    rw [← hcons hle]
    exact h.furthest_le (q :: before) p after (by rw [hfront, List.cons_append])
  · rintro ⟨hle, h⟩
    refine ⟨by rw [hcons hle]; exact h.start_lt, fun before p after hfront => ?_⟩
    cases before with
    | nil =>
      obtain ⟨rfl, -⟩ := List.cons_eq_cons.mp hfront
      exact hle
    | cons b before =>
      obtain ⟨rfl, htail⟩ := List.cons_eq_cons.mp hfront
      rw [hcons hle]
      exact h.furthest_le before p after htail

end ByteRange

namespace Edit

/-- **The cursor stands at the furthest end.** The copy stops at the first
range that begins before the furthest end of the ranges in front of it. The
ranges need not be sorted for this, as long as none runs backwards. -/
theorem overlap?_eq_some_iff {rs : List ByteRange} (hrs : ∀ r ∈ rs, r.start ≤ r.stop)
    (cursor n : Nat) :
    overlap? cursor rs = some n ↔
      ∃ front r back, rs = front ++ r :: back ∧ ByteRange.OverlapsFirst cursor front r
        ∧ n = r.start := by
  induction rs generalizing cursor with
  | nil => simp [overlap?]
  | cons q rs ih =>
    obtain ⟨hq, hrs⟩ := List.forall_mem_cons.mp hrs
    rw [overlap?]
    by_cases hlt : q.start < cursor
    · rw [if_pos hlt, Option.some.injEq]
      constructor
      · rintro rfl
        exact ⟨[], q, rs, rfl, (ByteRange.overlapsFirst_nil_iff cursor q).mpr hlt, rfl⟩
      · rintro ⟨front, r, back, hsplit, hfirst, rfl⟩
        cases front with
        | nil => rw [(List.cons_eq_cons.mp hsplit).1]
        | cons b front =>
          obtain ⟨rfl, -⟩ := List.cons_eq_cons.mp hsplit
          have hle := ((ByteRange.overlapsFirst_cons_iff hq front r).mp hfirst).1
          omega
    · rw [if_neg hlt, ih hrs]
      constructor
      · rintro ⟨front, r, back, rfl, hfirst, rfl⟩
        exact ⟨q :: front, r, back, rfl,
          (ByteRange.overlapsFirst_cons_iff hq front r).mpr ⟨by omega, hfirst⟩, rfl⟩
      · rintro ⟨front, r, back, hsplit, hfirst, rfl⟩
        cases front with
        | nil =>
          obtain ⟨rfl, -⟩ := List.cons_eq_cons.mp hsplit
          exact absurd ((ByteRange.overlapsFirst_nil_iff cursor q).mp hfirst) hlt
        | cons b front =>
          obtain ⟨rfl, rfl⟩ := List.cons_eq_cons.mp hsplit
          exact ⟨front, r, back, rfl,
            ((ByteRange.overlapsFirst_cons_iff hq front r).mp hfirst).2, rfl⟩

/-- **Sorting edits sorts their ranges**, and there is only one way to do
so. -/
theorem map_range_mergeSort_eq_iff (es : List Edit) (rs : List ByteRange) :
    (es.mergeSort precedes).map Edit.range = rs ↔
      rs.Perm (es.map Edit.range) ∧ rs.Pairwise rangePrecedes := by
  have hperm : ((es.mergeSort precedes).map Edit.range).Perm (es.map Edit.range) :=
    (List.mergeSort_perm es precedes).map Edit.range
  constructor
  · rintro rfl
    exact ⟨hperm, pairwise_rangePrecedes_mergeSort es⟩
  · rintro ⟨hrs, hpair⟩
    exact List.Perm.eq_of_pairwise (fun r s _ _ h h' => rangePrecedes_antisymm h h')
      (pairwise_rangePrecedes_mergeSort es) hpair (hperm.trans hrs.symm)

end Edit

/-! ## What a splice reports -/

namespace Insertion

/-- **The ranges that an insertion changes**: under its annotation and the
blanks that follow it, and, if there is a text to put in, the empty range
behind its declaration. -/
def changes (source : List Char) (i : Insertion) : List ByteRange :=
  i.marker.toList.map (removal source)
    ++ if i.rendered = [] then [] else [⟨i.declaration.stop, i.declaration.stop⟩]

/-- The edits of an insertion change these ranges. -/
theorem map_range_edits (source : List Char) (i : Insertion) :
    (i.edits source).map Edit.range = i.changes source := by
  unfold edits changes
  rw [List.map_append, List.map_map]
  by_cases h : i.rendered = []
  · rw [if_pos h, if_pos ((block_eq_nil_iff i).mpr h)]
    rfl
  · rw [if_neg h, if_neg (fun hb => h ((block_eq_nil_iff i).mp hb))]
    rfl

end Insertion

/-- The edits of a splice change the ranges of its insertions. -/
theorem map_range_spliceEdits (source : List Char) (insertions : List Insertion) :
    (spliceEdits source insertions).map Edit.range
      = insertions.flatMap (Insertion.changes source) := by
  unfold spliceEdits
  rw [List.map_flatMap]
  exact List.flatMap_congr fun i _ => Insertion.map_range_edits source i

/-- **What a splice reports.** The ranges of the insertions are looked at in
order, each declaration before its annotation, and the first one that is not
proper is reported. If all are proper, the ranges that are changed are put in
order, and the first one that overlaps is reported. -/
inductive SpliceError.Reported (source : List Char) (insertions : List Insertion) :
    SpliceError → Prop
  | outside {front back : List ByteRange} {r : ByteRange}
      (hranges : insertions.flatMap Insertion.ranges = front ++ r :: back)
      (hfront : ∀ q ∈ front, q.IsProper source) (hr : r.IsOutside source) :
      Reported source insertions (.outside r (Chars.width source))
  | splitsCharacter {front back : List ByteRange} {r : ByteRange}
      (hranges : insertions.flatMap Insertion.ranges = front ++ r :: back)
      (hfront : ∀ q ∈ front, q.IsProper source) (hin : ¬ r.IsOutside source)
      (hr : ¬ r.IsProper source) :
      Reported source insertions (.splitsCharacter r)
  | overlap {sorted front back : List ByteRange} {r : ByteRange}
      (hproper : ∀ q ∈ insertions.flatMap Insertion.ranges, q.IsProper source)
      (hperm : sorted.Perm (insertions.flatMap (Insertion.changes source)))
      (hsorted : sorted.Pairwise Edit.rangePrecedes)
      (hsplit : sorted = front ++ r :: back) (hfirst : ByteRange.OverlapsFirst 0 front r) :
      Reported source insertions (.overlap r.start)

/-- Every message says that the input is not valid. -/
theorem SpliceError.exists_message_eq (err : SpliceError) :
    ∃ detail, err.message = "Validation error: " ++ detail := by
  have hrange (rest : String) :
      "Validation error: range " ++ rest = "Validation error: " ++ ("range " ++ rest) := by
    rw [← String.append_assoc]
    exact congrArg (· ++ rest) (by decide +kernel)
  have hoverlap (rest : String) : "Validation error: overlapping edits at byte " ++ rest
      = "Validation error: " ++ ("overlapping edits at byte " ++ rest) := by
    rw [← String.append_assoc]
    exact congrArg (· ++ rest) (by decide +kernel)
  have hassoc (a b c d e : String) : a ++ b ++ c ++ d ++ e = a ++ (b ++ (c ++ (d ++ e))) := by
    simp only [String.append_assoc]
  cases err with
  | outside r size => exact ⟨_, (hassoc ..).trans (hrange _)⟩
  | splitsCharacter r => exact ⟨_, (String.append_assoc ..).trans (hrange _)⟩
  | overlap n => exact ⟨_, hoverlap _⟩

/-- The check of the ranges, in their order, reports the first one that is not
proper. -/
theorem findSome?_error?_eq_some_iff (source : List Char) (rs : List ByteRange)
    (err : SpliceError) :
    (rs.findSome? fun r => r.error? source) = some err ↔
      ∃ front r back, rs = front ++ r :: back ∧ (∀ q ∈ front, q.IsProper source)
        ∧ r.error? source = some err := by
  rw [List.findSome?_eq_some_iff]
  constructor
  · rintro ⟨front, r, back, hsplit, herr, hfront⟩
    exact ⟨front, r, back, hsplit,
      fun q hq => (ByteRange.error?_eq_none_iff source q).mp (hfront q hq), herr⟩
  · rintro ⟨front, r, back, hsplit, hfront, herr⟩
    exact ⟨front, r, back, hsplit, herr,
      fun q hq => (ByteRange.error?_eq_none_iff source q).mpr (hfront q hq)⟩

section

variable (source : String) (insertions : List Insertion)

/-- The ranges of all insertions are proper exactly when each insertion is. -/
theorem forall_isProper_ranges_iff (source : List Char) (insertions : List Insertion) :
    (∀ r ∈ insertions.flatMap Insertion.ranges, r.IsProper source) ↔
      ∀ i ∈ insertions, i.IsProper source := by
  rw [List.forall_mem_flatMap]
  rfl

/-- Edits of proper insertions do not run backwards. -/
theorem start_le_stop_of_mem_sorted {source : List Char} {insertions : List Insertion}
    (hproper : ∀ i ∈ insertions, i.IsProper source) {r : ByteRange}
    (hr : r ∈ ((spliceEdits source insertions).mergeSort Edit.precedes).map Edit.range) :
    r.start ≤ r.stop := by
  obtain ⟨e, he, rfl⟩ := List.mem_map.mp hr
  obtain ⟨i, hi, he⟩ := List.mem_flatMap.mp (List.mem_mergeSort.mp he)
  exact ((hproper i hi).edits he).start_le_stop

/-- Where all ranges are proper, a splice reports the first overlap of the
ranges that it changes. -/
theorem splice_eq_error_iff_overlapsFirst
    (hproper : ∀ i ∈ insertions, i.IsProper source.toList) (err : SpliceError) :
    splice source insertions = .error err ↔
      ∃ sorted front r back, sorted.Perm (insertions.flatMap (Insertion.changes source.toList))
        ∧ sorted.Pairwise Edit.rangePrecedes ∧ sorted = front ++ r :: back
        ∧ ByteRange.OverlapsFirst 0 front r ∧ err = .overlap r.start := by
  rw [splice_eq_error_iff hproper]
  have hoverlap := Edit.overlap?_eq_some_iff
    (fun r hr => start_le_stop_of_mem_sorted hproper hr) 0
  rw [← map_range_spliceEdits]
  constructor
  · rintro ⟨n, hn, rfl⟩
    obtain ⟨front, r, back, hsplit, hfirst, rfl⟩ := (hoverlap n).mp hn
    obtain ⟨hperm, hsorted⟩ := (Edit.map_range_mergeSort_eq_iff ..).mp rfl
    exact ⟨_, front, r, back, hperm, hsorted, hsplit, hfirst, rfl⟩
  · rintro ⟨sorted, front, r, back, hperm, hsorted, hsplit, hfirst, rfl⟩
    have hrs := (Edit.map_range_mergeSort_eq_iff ..).mpr ⟨hperm, hsorted⟩
    exact ⟨r.start, (hoverlap _).mpr ⟨front, r, back, hrs.trans hsplit, hfirst, rfl⟩, rfl⟩

/-- Where some range is not proper, a splice fails with what the check of the
ranges reports. -/
theorem splice_eq_error_of_error? {err : SpliceError}
    (h : ((insertions.flatMap Insertion.ranges).findSome? fun r => r.error? source.toList)
      = some err) : splice source insertions = .error err := by
  unfold splice
  dsimp only
  rw [h]

/-- **A splice fails with what it reports**, and with nothing else. -/
theorem splice_eq_error_iff_reported (err : SpliceError) :
    splice source insertions = .error err ↔
      SpliceError.Reported source.toList insertions err := by
  constructor
  · intro hsplice
    cases hcheck : (insertions.flatMap Insertion.ranges).findSome? fun r =>
        r.error? source.toList with
    | none =>
      have hproper := (findSome?_error?_eq_none_iff ..).mp hcheck
      obtain ⟨sorted, front, r, back, hperm, hsorted, hsplit, hfirst, rfl⟩ :=
        (splice_eq_error_iff_overlapsFirst source insertions hproper err).mp hsplice
      exact .overlap ((forall_isProper_ranges_iff ..).mpr hproper) hperm hsorted hsplit hfirst
    | some err' =>
      obtain rfl : err' = err := by
        rw [splice_eq_error_of_error? source insertions hcheck] at hsplice
        exact Except.error.inj hsplice
      obtain ⟨front, r, back, hranges, hfront, herr⟩ :=
        (findSome?_error?_eq_some_iff ..).mp hcheck
      rcases (ByteRange.error?_eq_some_iff ..).mp herr with ⟨hr, rfl⟩ | ⟨hin, hr, rfl⟩
      · exact .outside hranges hfront hr
      · exact .splitsCharacter hranges hfront hin hr
  · intro hreported
    cases hreported with
    | outside hranges hfront hr =>
      refine splice_eq_error_of_error? source insertions
        ((findSome?_error?_eq_some_iff ..).mpr ⟨_, _, _, hranges, hfront, ?_⟩)
      exact (ByteRange.error?_eq_some_iff ..).mpr (Or.inl ⟨hr, rfl⟩)
    | splitsCharacter hranges hfront hin hr =>
      refine splice_eq_error_of_error? source insertions
        ((findSome?_error?_eq_some_iff ..).mpr ⟨_, _, _, hranges, hfront, ?_⟩)
      exact (ByteRange.error?_eq_some_iff ..).mpr (Or.inr ⟨hin, hr, rfl⟩)
    | overlap hproper hperm hsorted hsplit hfirst =>
      exact (splice_eq_error_iff_overlapsFirst source insertions
        ((forall_isProper_ranges_iff ..).mp hproper) _).mpr
        ⟨_, _, _, _, hperm, hsorted, hsplit, hfirst, rfl⟩

end

/-! ## Cuts that can fail -/

/-- **A step that can stop the program.** It gives a value, or fails with an
error that is reported, or – as `none` – cuts a text at an offset that is no
boundary of it, which stops the program. -/
abbrev Guarded := ExceptT SpliceError Option

namespace Guarded

/-- Checks a range. -/
def check (source : List Char) (r : ByteRange) : Guarded Unit :=
  match r.error? source with
  | some err => throw err
  | none => pure ()

/-- **Cuts a text out of a source.** The program stops if the range runs
backwards, past the end, or into a character. -/
def slice (source : List Char) (start stop : Nat) : Guarded (List Char) :=
  if (⟨start, stop⟩ : ByteRange).IsProper source then pure (Chars.slice source start stop)
  else ExceptT.mk none

/-- The range that is taken out for an annotation. -/
def removal (source : List Char) (marker : ByteRange) : Guarded ByteRange := do
  let rest ← slice source marker.stop (Chars.width source)
  return { marker with stop := marker.stop + Chars.width (rest.takeWhile isBlank) }

/-- The edits of an insertion, each range being checked before the source is
cut at one of its ends. -/
def edits (source : List Char) (i : Insertion) : Guarded (List Edit) := do
  check source i.declaration
  let removals ← i.marker.toList.mapM fun a => do
    check source a
    let r ← removal source a
    return { range := r, replacement := [] }
  return removals ++
    if i.block = [] then []
    else [{ range := ⟨i.declaration.stop, i.declaration.stop⟩, replacement := i.block }]

/-- Copies a source through its edits. -/
def copy (source : List Char) (cursor : Nat) : List Edit → Guarded (List Char)
  | [] => slice source cursor (Chars.width source)
  | e :: es =>
    if e.range.start < cursor then throw (.overlap e.range.start)
    else do
      let kept ← slice source cursor e.range.start
      let output ← copy source e.range.stop es
      return kept ++ e.replacement ++ output

/-- **A splice whose cuts can stop the program.** -/
def splice (source : String) (insertions : List Insertion) : Guarded String := do
  let edits ← insertions.mapM (edits source.toList)
  let output ← copy source.toList 0 (edits.flatten.mergeSort Edit.precedes)
  return String.ofList output

/-! ### The cuts of a splice are in place -/

variable {source : List Char}

/-- A failed step fails what follows. -/
theorem throw_bind {α β : Type} (err : SpliceError) (f : α → Guarded β) :
    (throw err : Guarded α) >>= f = throw err := rfl

/-- A proper range is cut out. -/
theorem slice_of_isProper {start stop : Nat} (h : (⟨start, stop⟩ : ByteRange).IsProper source) :
    slice source start stop = pure (Chars.slice source start stop) := if_pos h

/-- From a boundary on, the source is cut to its end. -/
theorem slice_width {start : Nat} (h : Chars.isBoundary start source = true) :
    slice source start (Chars.width source) = pure (Chars.dropBytes start source) := by
  have hend : Chars.isBoundary (Chars.width source) source = true :=
    (Chars.isBoundary_iff ..).mpr ⟨source, [], (List.append_nil _).symm, rfl⟩
  rw [slice_of_isProper ⟨Chars.le_width_of_isBoundary h, h, hend⟩]
  obtain ⟨front, rest, rfl, rfl⟩ := (Chars.isBoundary_iff start source).mp h
  have hrest : Chars.takeBytes (Chars.width rest) rest = rest := by
    simpa using Chars.takeBytes_width rest []
  rw [Chars.slice, Chars.dropBytes_width, Chars.width_append, Nat.add_sub_cancel_left, hrest]

/-- **The copy never stops the program.** Its cursor is a boundary of the
source, and so are the ends of all edits. -/
theorem copy_eq {cursor : Nat} (hcursor : Chars.isBoundary cursor source = true) {es : List Edit}
    (hes : ∀ e ∈ es, e.range.IsProper source) :
    copy source cursor es
      = ExceptT.mk (some (Edit.applyFrom cursor (Chars.dropBytes cursor source) es)) := by
  induction es generalizing cursor with
  | nil =>
    rw [copy, slice_width hcursor]
    rfl
  | cons e es ih =>
    obtain ⟨he, hes⟩ := List.forall_mem_cons.mp hes
    rw [copy, Edit.applyFrom]
    by_cases hlt : e.range.start < cursor
    · rw [if_pos hlt, if_pos hlt]
      rfl
    · have hle : cursor ≤ e.range.start := by omega
      rw [if_neg hlt, if_neg hlt, slice_of_isProper ⟨hle, hcursor, he.isBoundary_start⟩,
        ih he.isBoundary_stop hes,
        Chars.dropBytes_dropBytes hcursor (Nat.le_trans hle he.start_le_stop)]
      dsimp only
      cases Edit.applyFrom e.range.stop (Chars.dropBytes e.range.stop source) es with
      | error err => rfl
      | ok output => rfl

/-- A proper range passes the check. -/
theorem check_of_isProper {r : ByteRange} (h : r.IsProper source) :
    check source r = pure () := by
  rw [check, (ByteRange.error?_eq_none_iff source r).mpr h]

/-- The range of a removal is found by a cut behind the annotation. -/
theorem removal_of_isProper {a : ByteRange} (h : a.IsProper source) :
    removal source a = pure (Insertion.removal source a) := by
  rw [removal, slice_width h.isBoundary_stop]
  rfl

/-- The edits of a proper insertion are found. -/
theorem edits_of_isProper {i : Insertion} (h : i.IsProper source) :
    edits source i = pure (i.edits source) := by
  unfold edits Insertion.edits
  rw [check_of_isProper h.declaration]
  cases ha : i.marker with
  | none => rfl
  | some a =>
    rw [Option.toList_some, List.mapM_cons, check_of_isProper (h.marker ha),
      removal_of_isProper (h.marker ha)]
    rfl

/-- An insertion with a range that is not proper fails with the first one. -/
theorem edits_of_error? {i : Insertion} {err : SpliceError}
    (h : (i.ranges.findSome? fun r => r.error? source) = some err) :
    edits source i = throw err := by
  unfold edits
  unfold Insertion.ranges at h
  rw [List.findSome?_cons] at h
  rw [check]
  cases hdeclaration : i.declaration.error? source with
  | some err' =>
    rw [hdeclaration] at h
    rw [← Option.some.inj h, throw_bind]
  | none =>
    rw [hdeclaration] at h
    cases ha : i.marker with
    | none =>
      rw [ha] at h
      exact absurd h (by simp)
    | some a =>
      have herr : a.error? source = some err := by simpa [ha] using h
      rw [Option.toList_some, List.mapM_cons, check, herr]
      rfl

/-- **The edits of all insertions are found**, or the first range that is not
proper is reported. -/
theorem mapM_edits (insertions : List Insertion) :
    insertions.mapM (edits source)
      = match (insertions.flatMap Insertion.ranges).findSome? fun r => r.error? source with
        | some err => throw err
        | none => pure (insertions.map (Insertion.edits source)) := by
  induction insertions with
  | nil => rfl
  | cons i is ih =>
    rw [List.mapM_cons, ih, List.flatMap_cons, List.findSome?_append]
    cases hi : i.ranges.findSome? fun r => r.error? source with
    | some err =>
      rw [edits_of_error? hi]
      rfl
    | none =>
      have hproper : i.IsProper source := by
        intro r hr
        exact (ByteRange.error?_eq_none_iff ..).mp (List.findSome?_eq_none_iff.mp hi r hr)
      rw [edits_of_isProper hproper, Option.none_or]
      cases (is.flatMap Insertion.ranges).findSome? fun r => r.error? source with
      | some err => rfl
      | none => rfl

/-- **A splice never stops the program**: it cuts the source at boundaries
only, whatever it is given. -/
theorem splice_eq (source : String) (insertions : List Insertion) :
    splice source insertions = ExceptT.mk (some (TestAccess.splice source insertions)) := by
  unfold splice TestAccess.splice
  rw [mapM_edits]
  dsimp only
  cases hcheck : (insertions.flatMap Insertion.ranges).findSome? fun r =>
      r.error? source.toList with
  | some err => rfl
  | none =>
    have hproper := (findSome?_error?_eq_none_iff ..).mp hcheck
    have hedits : ∀ e ∈ (spliceEdits source.toList insertions).mergeSort Edit.precedes,
        e.range.IsProper source.toList := by
      intro e he
      obtain ⟨i, hi, he⟩ := List.mem_flatMap.mp (List.mem_mergeSort.mp he)
      exact (hproper i hi).edits he
    dsimp only
    rw [pure_bind, ← List.flatMap_def]
    have hzero : Chars.isBoundary 0 source.toList = true :=
      (Chars.isBoundary_iff ..).mpr ⟨[], source.toList, rfl, rfl⟩
    have hcopy := copy_eq hzero hedits
    rw [Chars.dropBytes_zero] at hcopy
    unfold spliceEdits at hcopy
    rw [hcopy]
    cases Edit.applyFrom 0 source.toList
        ((insertions.flatMap (Insertion.edits source.toList)).mergeSort Edit.precedes) with
    | error err => rfl
    | ok output => rfl

end Guarded

/-! ## The verdict -/

/-- **A splice accepts exactly the separate changes at proper ranges.** It
gives an output when all ranges of its insertions are proper and any two of
the ranges that it changes are separate. Otherwise it reports the first range
that is not proper, or else the first overlap. In neither case does it cut the
source at an offset that is no boundary. -/
theorem splice_accepts_separate_changes (source : String) (insertions : List Insertion) :
    ((∃ out, splice source insertions = .ok out) ↔
        (∀ r ∈ insertions.flatMap Insertion.ranges, r.IsProper source.toList)
          ∧ (insertions.flatMap (Insertion.changes source.toList)).Pairwise ByteRange.Separate)
      ∧ (∀ err, splice source insertions = .error err ↔
          SpliceError.Reported source.toList insertions err)
      ∧ (∀ err : SpliceError, ∃ detail, err.message = "Validation error: " ++ detail)
      ∧ Guarded.splice source insertions = ExceptT.mk (some (splice source insertions)) := by
  refine ⟨?_, splice_eq_error_iff_reported source insertions, SpliceError.exists_message_eq,
    Guarded.splice_eq source insertions⟩
  rw [exists_splice_eq_ok_iff, forall_isProper_ranges_iff, ← map_range_spliceEdits,
    List.pairwise_map]

/-- A removal, and a text behind its declaration, in a source with a character
of two bytes. -/
def wideSource : String := "é @V x"

/-- In the wide source a declaration can be taken from its annotation on; it
cannot begin inside the first character, and it cannot end in front of the
blank that is taken out with the annotation. -/
theorem splice_accepts_separate_changes_wideSource :
    (∃ out, splice wideSource [{ declaration := ⟨3, 7⟩, marker := some ⟨3, 5⟩, rendered := ["y"] }]
        = .ok out)
      ∧ splice wideSource [{ declaration := ⟨1, 7⟩, marker := some ⟨3, 5⟩, rendered := ["y"] }]
        = .error (.splitsCharacter ⟨1, 7⟩)
      ∧ splice wideSource [{ declaration := ⟨3, 5⟩, marker := some ⟨3, 5⟩, rendered := ["y"] }]
        = .error (.overlap 5) := by
  refine ⟨(splice_accepts_separate_changes ..).1.mpr ⟨by decide +kernel, ?_⟩,
    ((splice_accepts_separate_changes ..).2.1 _).mpr ?_,
    ((splice_accepts_separate_changes ..).2.1 _).mpr ?_⟩
  · unfold ByteRange.Separate
    decide +kernel
  · refine @SpliceError.Reported.splitsCharacter _ _ [] [⟨3, 5⟩] ⟨1, 7⟩ rfl (by simp) ?_
      (by decide +kernel)
    unfold ByteRange.IsOutside
    decide +kernel
  · refine @SpliceError.Reported.overlap _ _ [⟨3, 6⟩, ⟨5, 5⟩] [⟨3, 6⟩] [] ⟨5, 5⟩
      (by decide +kernel) (by decide +kernel) ?_ rfl ⟨by decide, fun before q after h => ?_⟩
    · unfold Edit.rangePrecedes
      decide
    · cases before with
      | nil => exact Nat.zero_le _
      | cons b before => exact absurd (congrArg List.length h) (by simp)

end TestAccess
